/-
This file proves that in a statement no line break stands right after a keyword that continues the
line, and that only its blocks hold block marks.
-/

import Offside.Proofs.Expression.Sound
import Offside.Proofs.Layout
import Offside.Proofs.Statement.Grammar
import Mathlib.Data.List.Chain

namespace Offside.Grammar

open Cursor

theorem StartsWith.of_kind {token : Token} {kind : Kind} {rest : List Token}
    (same : token.kind = kind) : StartsWith (· == kind) (token :: rest) :=
  ⟨token, rest, rfl, beq_iff_eq.2 same⟩

/-- No line break stands right after a keyword that continues the line. -/
def Continuous (tokens : List Token) : Prop :=
  tokens.IsChain fun first second => first.kind.continuesLine = true → second.kind ≠ .newline

namespace Continuous

variable {token : Token} {rest : List Token}

/-- An ordinary token before continuous tokens keeps them continuous. -/
theorem plain (tail : Continuous rest) (ordinary : token.kind.continuesLine = false) :
    Continuous (token :: rest) := by
  refine List.isChain_cons.2 ⟨?_, tail⟩
  intro second head continues
  rw [ordinary] at continues
  cases continues

/-- Any token before continuous tokens that start without a line break keeps them continuous. -/
theorem before {sort : Kind → Bool} (tail : Continuous rest) (starts : StartsWith sort rest)
    (noBreak : sort .newline = false) : Continuous (token :: rest) := by
  obtain ⟨first, others, rfl, isSort⟩ := starts
  refine List.isChain_cons.2 ⟨?_, tail⟩
  intro second head _ newline
  obtain rfl := Option.mem_some_iff.1 head
  rw [newline, noBreak] at isSort
  cases isSort

end Continuous

end Offside.Grammar

namespace Offside.Kind

/-- Such a token neither marks a block nor continues the line. -/
def IsOrdinary (kind : Kind) : Prop := kind.isFlat = true ∧ kind.continuesLine = false

end Offside.Kind

namespace Offside.Grammar

/-- Tokens without block marks that keep what comes after them continuous. -/
structure Inline (tokens : List Token) : Prop where
  flat : ∀ token ∈ tokens, token.kind.isFlat = true
  continuous : ∀ rest, Continuous rest → Continuous (tokens ++ rest)

namespace Inline

variable {token : Token} {kind : Kind} {first second : List Token}

theorem nil : Inline [] := ⟨List.forall_mem_nil _, fun _ tail => tail⟩

/-- An ordinary token before inline ones keeps them inline. -/
theorem cons (further : Inline first) (same : token.kind = kind) (ordinary : kind.IsOrdinary) :
    Inline (token :: first) where
  flat := List.forall_mem_cons.2 ⟨same ▸ ordinary.1, further.flat⟩
  continuous rest tail := (further.continuous rest tail).plain (same ▸ ordinary.2)

theorem single (same : token.kind = kind) (ordinary : kind.IsOrdinary) : Inline [token] :=
  nil.cons same ordinary

/-- Inline tokens in a row are inline. -/
theorem append (start : Inline first) (further : Inline second) : Inline (first ++ second) where
  flat := List.forall_mem_append.2 ⟨start.flat, further.flat⟩
  continuous rest tail := by
    rw [List.append_assoc]
    exact start.continuous _ (further.continuous rest tail)

/-- What comes after a keyword that continues the line is no line break. -/
theorem before {sort : Kind → Bool} (further : Inline first) (flat : token.kind.isFlat = true)
    (starts : StartsWith sort first) (noBreak : sort .newline = false) :
    Inline (token :: first) where
  flat := List.forall_mem_cons.2 ⟨flat, further.flat⟩
  continuous rest tail := (further.continuous rest tail).before (starts.append rest) noBreak

end Inline

theorem ordinary_of_literal {token : Token} {value : Constant}
    (literal : Constant.ofToken? token = some value) : token.kind.IsOrdinary := by
  unfold Constant.ofToken? at literal
  split at literal <;>
    simp_all [Kind.IsOrdinary, Kind.isFlat, Kind.continuesLine, Keyword.continuesLine]

theorem ordinary_of_unary {kind : Kind} {operator : UnaryOperator}
    (sign : UnaryOperator.ofKind? kind = some operator) : kind.IsOrdinary := by
  unfold UnaryOperator.ofKind? at sign
  split at sign <;> simp_all [Kind.IsOrdinary, Kind.isFlat, Kind.continuesLine]

theorem ordinary_of_terminator {kind : Kind} (stop : kind.isTerminator = true) :
    kind.IsOrdinary := by
  obtain rfl | rfl := Kind.isTerminator_iff.1 stop <;> exact ⟨rfl, rfl⟩

mutual

/-- An assignment is inline. -/
theorem Assignment.inline {tokens : List Token} {tree : Expression} :
    Assignment tokens tree → Inline tokens
  | .assign name equal value => (value.inline.cons equal ⟨rfl, rfl⟩).cons name ⟨rfl, rfl⟩
  | .increment name sign => (Inline.single sign ⟨rfl, rfl⟩).cons name ⟨rfl, rfl⟩
  | .decrement name sign => (Inline.single sign ⟨rfl, rfl⟩).cons name ⟨rfl, rfl⟩
  | .chain derivation => derivation.inline

/-- A connective may be such a keyword, but an operand comes after it. -/
theorem Chain.inline {levels : List Level} {tokens : List Token} {tree : Expression} :
    Chain levels tokens tree → Inline tokens
  | .operand derivation => derivation.inline
  | .single derivation => derivation.inline
  | .join left sign right =>
      left.inline.append (right.inline.before (Parser.flat_of_connective sign) right.starts rfl)

/-- An operand is inline. -/
theorem Unary.inline {tokens : List Token} {tree : Expression} :
    Unary tokens tree → Inline tokens
  | .operator sign operand => operand.inline.cons rfl (ordinary_of_unary sign)
  | .call derivation => derivation.inline

/-- A call is inline. -/
theorem Call.inline {tokens : List Token} {tree : Expression} :
    Call tokens tree → Inline tokens
  | .primary derivation => derivation.inline
  | .empty callee opening closing =>
      callee.inline.append ((Inline.single closing ⟨rfl, rfl⟩).cons opening ⟨rfl, rfl⟩)
  | .apply callee opening inside closing =>
      callee.inline.append
        ((inside.inline.append (.single closing ⟨rfl, rfl⟩)).cons opening ⟨rfl, rfl⟩)

/-- A list of arguments is inline. -/
theorem Arguments.inline {tokens : List Token} {values : List Expression} :
    Arguments tokens values → Inline tokens
  | .last derivation => derivation.inline
  | .more derivation comma others =>
      derivation.inline.append (others.inline.cons comma ⟨rfl, rfl⟩)

/-- A primary is inline. -/
theorem Primary.inline {tokens : List Token} {tree : Expression} :
    Primary tokens tree → Inline tokens
  | .literal same => .single rfl (ordinary_of_literal same)
  | .reference name => .single name ⟨rfl, rfl⟩
  | .group opening inside closing =>
      (inside.inline.append (.single closing ⟨rfl, rfl⟩)).cons opening ⟨rfl, rfl⟩

end

section Parts

variable {tokens : List Token}

/-- An expression statement is inline. -/
theorem Simple.inline {tree : Statement} (derivation : Simple tokens tree) :
    Inline tokens := by
  cases derivation with
  | intro value stop =>
      exact value.inline.append (.single rfl (ordinary_of_terminator stop))

/-- A declaration starts with a name. -/
theorem Declaration.starts {tree : Statement} (derivation : Declaration tokens tree) :
    StartsWith (· == .name) tokens := by
  cases derivation with
  | bare name => exact .of_kind name
  | initial name => exact .of_kind name

/-- A declaration is inline. -/
theorem Declaration.inline {tree : Statement} (derivation : Declaration tokens tree) :
    Inline tokens := by
  cases derivation with
  | bare name stop => exact (Inline.single rfl (ordinary_of_terminator stop)).cons name ⟨rfl, rfl⟩
  | initial name equal value stop =>
      have last := Inline.single rfl (ordinary_of_terminator stop)
      exact ((value.inline.append last).cons equal ⟨rfl, rfl⟩).cons name ⟨rfl, rfl⟩

/-- A return is inline. -/
theorem Returned.inline {value : Option Expression} (derivation : Returned tokens value) :
    Inline tokens := by
  cases derivation with
  | nothing stop => exact .single rfl (ordinary_of_terminator stop)
  | value value stop => exact value.inline.append (.single rfl (ordinary_of_terminator stop))

/-- An initializer is inline. -/
theorem Initializer.inline {tree : Option Statement} (derivation : Initializer tokens tree) :
    Inline tokens := by
  cases derivation with
  | absent stop => exact .single stop ⟨rfl, rfl⟩
  | declaration word declared =>
      exact declared.inline.before (by rw [word]; rfl) declared.starts rfl
  | simple derivation => exact derivation.inline

/-- An initializer does not start with a line break. -/
theorem Initializer.starts {tree : Option Statement} (derivation : Initializer tokens tree) :
    StartsWith (· != .newline) tokens := by
  cases derivation with
  | absent stop => exact ⟨_, _, rfl, by rw [stop]; rfl⟩
  | declaration word => exact ⟨_, _, rfl, by rw [word]; rfl⟩
  | simple derivation =>
      obtain ⟨token, rest, same, starts⟩ := derivation.starts
      refine ⟨token, rest, same, bne_iff_ne.2 fun newline => ?_⟩
      rw [newline] at starts
      cases starts

/-- A condition is inline. -/
theorem Condition.inline {tree : Expression} (derivation : Condition tokens tree) :
    Inline tokens := by
  cases derivation with
  | absent stop => exact .single stop ⟨rfl, rfl⟩
  | present value stop => exact value.inline.append (.single stop ⟨rfl, rfl⟩)

/-- An increment is inline. -/
theorem Increment.inline {tree : Option Expression} (derivation : Increment tokens tree) :
    Inline tokens := by
  cases derivation with
  | absent => exact .nil
  | present value => exact value.inline

/-- The clauses of a counting loop are inline. -/
theorem Clauses.inline {initializer : Option Statement} {condition : Expression}
    {increment : Option Expression} (derivation : Clauses tokens initializer condition increment) :
    Inline tokens := by
  cases derivation with
  | intro first second third =>
      exact first.inline.append (second.inline.append third.inline)

/-- The header of a counting loop is inline. -/
theorem Header.inline {initializer : Option Statement} {condition : Expression}
    {increment : Option Expression} (derivation : Header tokens initializer condition increment) :
    Inline tokens := by
  cases derivation with
  | parenthesized opening clauses closing =>
      exact (clauses.inline.append (.single closing ⟨rfl, rfl⟩)).cons opening ⟨rfl, rfl⟩
  | plain _ clauses => exact clauses.inline

/-- The header of a counting loop does not start with a line break. -/
theorem Header.starts {initializer : Option Statement} {condition : Expression}
    {increment : Option Expression} (derivation : Header tokens initializer condition increment) :
    StartsWith (· != .newline) tokens := by
  cases derivation with
  | parenthesized opening => exact ⟨_, _, rfl, by rw [opening]; rfl⟩
  | plain _ clauses =>
      cases clauses with
      | intro first => exact first.starts.append _

/-- A list of names is inline. -/
theorem Names.inline {names : List Name} (derivation : Names tokens names) :
    Inline tokens := by
  induction derivation with
  | last name => exact .single name ⟨rfl, rfl⟩
  | more name comma _ inductionHypothesis =>
      exact (inductionHypothesis.cons comma ⟨rfl, rfl⟩).cons name ⟨rfl, rfl⟩

/-- A list of parameters is inline. -/
theorem Parameters.inline {names : List Name} (derivation : Parameters tokens names) :
    Inline tokens := by
  cases derivation with
  | none => exact .nil
  | some derivation => exact derivation.inline

/-- A line break alone is inline. -/
theorem LineBreak.inline (derivation : LineBreak tokens) : Inline tokens := by
  cases derivation with
  | absent => exact .nil
  | present newline => exact .single newline ⟨rfl, rfl⟩

end Parts

/-- The statement after a header stands on the same line or in a block. -/
theorem Continuous.headed {sort : Kind → Bool} {word then_ : Token}
    {header inside rest : List Token} {tree : Statement} (inner : Continuous inside)
    (derivation : Derives inside tree rest)
    (inline : Inline header) (starts : StartsWith sort header)
    (noBreak : sort .newline = false) : Continuous (word :: (header ++ then_ :: inside)) := by
  have after : Continuous (then_ :: inside) := inner.before derivation.starts rfl
  exact (inline.continuous _ after).before (starts.append _) noBreak

mutual

/-- A statement before continuous tokens keeps them continuous. -/
theorem Derives.continuous {tokens rest : List Token} {tree : Statement} :
    Derives tokens tree rest → Continuous rest → Continuous tokens
  | .if_ _ condition _ success _, tail =>
      (success.continuous tail).headed success condition.inline condition.starts rfl
  | @Derives.ifElse _ _ else_ word _ _ others _ _ _ _ _ condition _ success _ then_ failure,
    tail => by
      have inner : Continuous (word :: others) :=
        (failure.continuous tail).before failure.starts rfl
      have after : Continuous (else_ :: word :: others) := inner.before (.of_kind then_) rfl
      exact (success.continuous after).headed success condition.inline condition.starts rfl
  | .while_ _ condition _ body, tail =>
      (body.continuous tail).headed body condition.inline condition.starts rfl
  | .for_ _ header _ body, tail =>
      (body.continuous tail).headed body header.inline header.starts rfl
  | .func _ name colon parameters equal gap body, tail => by
      have inner := (gap.inline.continuous _ (body.continuous tail)).plain (by rw [equal]; rfl)
      have typed := (parameters.inline.continuous _ inner).plain (by rw [colon]; rfl)
      have named := typed.plain (by rw [name]; rfl)
      exact named.before (.of_kind name) rfl
  | .let_ _ declared, tail =>
      (declared.inline.continuous _ tail).before (declared.starts.append _) rfl
  | .return_ word value, tail => (value.inline.continuous _ tail).plain (by rw [word]; rfl)
  | .block derivation, tail => derivation.continuous tail
  | .simple derivation, tail => derivation.inline.continuous _ tail

/-- A block before continuous tokens keeps them continuous. -/
theorem Block.continuous {tokens rest : List Token} {body : List Statement} :
    Block tokens body rest → Continuous rest → Continuous tokens
  | .closed indent inside dedent, tail =>
      (inside.continuous (tail.plain (by rw [dedent]; rfl))).plain (by rw [indent]; rfl)
  | .ended indent inside, tail => (inside.continuous tail).plain (by rw [indent]; rfl)

/-- A list of statements before continuous tokens keeps them continuous. -/
theorem Sequence.continuous {tokens rest : List Token} {trees : List Statement} :
    Sequence tokens trees rest → Continuous rest → Continuous tokens
  | .nil, tail => tail
  | .cons first others, tail => first.continuous (others.continuous tail)

end

end Offside.Grammar
