/-
This file holds the grammar of expressions.
-/

import Offside.Grammar.Expression
import Mathlib.Data.List.Basic

namespace Offside

/-- A literal is a constant that one token holds. -/
def Constant.ofToken? (token : Token) : Option Constant :=
  match token.kind with
  | .keyword .true => some (.bool true)
  | .keyword .false => some (.bool false)
  | .keyword .nil => some .nil
  | .number | .string => some (.ofLiteral token.literal)
  | _ => none

/-- A name that is counted up or down is assigned its sum or difference with one. -/
def Expression.stepped (operator : BinaryOperator) (name sign : Token) : Expression :=
  .assign (.ofToken name) (.binary operator (.reference (.ofToken name))
    (.constant (.number 1) sign.line) sign.line)

namespace Kind

def startsPrimary : Kind → Bool
  | .symbol .leftParen | .number | .string | .name => true
  | .keyword .true | .keyword .false | .keyword .nil => true
  | _ => false

def startsExpression (kind : Kind) : Bool :=
  kind.startsPrimary || (UnaryOperator.ofKind? kind).isSome

end Kind

namespace Grammar

mutual

inductive Assignment : List Token → Expression → Prop
  | assign {name equal : Token} {tokens : List Token} {value : Expression} :
      name.kind = .name → equal.kind = .symbol .equal → Assignment tokens value →
      Assignment (name :: equal :: tokens) (.assign (.ofToken name) value)
  | increment {name sign : Token} : name.kind = .name → sign.kind = .symbol .plusPlus →
      Assignment [name, sign] (.stepped .add name sign)
  | decrement {name sign : Token} : name.kind = .name → sign.kind = .symbol .minusMinus →
      Assignment [name, sign] (.stepped .subtract name sign)
  | chain {tokens : List Token} {tree : Expression} :
      Chain Level.all tokens tree → Assignment tokens tree

/-- The operands of a chain are chains of the tighter levels. A chain grows at its right end. -/
inductive Chain : List Level → List Token → Expression → Prop
  | operand {tokens : List Token} {tree : Expression} : Unary tokens tree → Chain [] tokens tree
  | single {level : Level} {levels : List Level} {tokens : List Token} {tree : Expression} :
      Chain levels tokens tree → Chain (level :: levels) tokens tree
  | join {level : Level} {levels : List Level} {first second : List Token} {sign : Token}
      {connective : Connective} {left right : Expression} :
      Chain (level :: levels) first left → level.connective? sign.kind = some connective →
      Chain levels second right →
      Chain (level :: levels) (first ++ sign :: second) (connective.join left right sign.line)

inductive Unary : List Token → Expression → Prop
  | operator {sign : Token} {operator : UnaryOperator} {tokens : List Token} {tree : Expression} :
      UnaryOperator.ofKind? sign.kind = some operator → Unary tokens tree →
      Unary (sign :: tokens) (.unary operator tree sign.line)
  | call {tokens : List Token} {tree : Expression} : Call tokens tree → Unary tokens tree

inductive Call : List Token → Expression → Prop
  | primary {tokens : List Token} {tree : Expression} : Primary tokens tree → Call tokens tree
  | empty {tokens : List Token} {opening closing : Token} {callee : Expression} :
      Call tokens callee → opening.kind = .symbol .leftParen → closing.kind = .symbol .rightParen →
      Call (tokens ++ [opening, closing]) (.call callee [] opening.line)
  | apply {tokens inside : List Token} {opening closing : Token} {callee : Expression}
      {values : List Expression} :
      Call tokens callee → opening.kind = .symbol .leftParen → Arguments inside values →
      closing.kind = .symbol .rightParen →
      Call (tokens ++ opening :: (inside ++ [closing])) (.call callee values opening.line)

/-- There is at least one argument. -/
inductive Arguments : List Token → List Expression → Prop
  | last {tokens : List Token} {value : Expression} :
      Assignment tokens value → Arguments tokens [value]
  | more {tokens others : List Token} {comma : Token} {value : Expression}
      {values : List Expression} :
      Assignment tokens value → comma.kind = .symbol .comma → Arguments others values →
      Arguments (tokens ++ comma :: others) (value :: values)

inductive Primary : List Token → Expression → Prop
  | literal {token : Token} {value : Constant} : Constant.ofToken? token = some value →
      Primary [token] (.constant value token.line)
  | reference {token : Token} : token.kind = .name → Primary [token] (.reference (.ofToken token))
  | group {opening closing : Token} {inside : List Token} {tree : Expression} :
      opening.kind = .symbol .leftParen → Assignment inside tree →
      closing.kind = .symbol .rightParen → Primary (opening :: (inside ++ [closing])) (.group tree)

end

/-- Only one token derives a reference. -/
def IsReference (tokens : List Token) (name : Name) : Prop :=
  ∃ token, tokens = [token] ∧ token.kind = .name ∧ name = .ofToken token

/-- An operand that derives a reference is one name. -/
theorem Unary.reference {tokens : List Token} {name : Name}
    (derivation : Unary tokens (.reference name)) : IsReference tokens name := by
  cases derivation with
  | call derivation =>
      cases derivation with
      | primary derivation =>
          cases derivation with
          | reference kind => exact ⟨_, rfl, kind, rfl⟩

/-- A chain that derives a reference is one name. -/
theorem Chain.reference {levels : List Level} {tokens : List Token} {name : Name}
    (derivation : Chain levels tokens (.reference name)) : IsReference tokens name := by
  induction levels with
  | nil =>
      cases derivation with
      | operand derivation => exact derivation.reference
  | cons level levels inductionHypothesis =>
      generalize same : Expression.reference name = tree at derivation
      cases derivation with
      | single derivation =>
          rw [← same] at derivation
          exact inductionHypothesis derivation
      | @join _ _ _ _ _ connective => cases connective <;> cases same

/-- The first token has a kind of this sort. -/
def StartsWith (sort : Kind → Bool) (tokens : List Token) : Prop :=
  ∃ token rest, tokens = token :: rest ∧ sort token.kind = true

theorem StartsWith.append {sort : Kind → Bool} {tokens : List Token}
    (starts : StartsWith sort tokens) (others : List Token) :
    StartsWith sort (tokens ++ others) := by
  obtain ⟨token, rest, rfl, kind⟩ := starts
  exact ⟨token, rest ++ others, rfl, kind⟩

/-- Tokens that start in some way are not empty. -/
theorem StartsWith.nonempty {sort : Kind → Bool} {tokens : List Token}
    (starts : StartsWith sort tokens) : 0 < tokens.length := by
  obtain ⟨token, rest, rfl, -⟩ := starts
  exact Nat.succ_pos _

/-- A primary starts with a kind of its own sort. -/
theorem Primary.starts {tokens : List Token} {tree : Expression}
    (derivation : Primary tokens tree) : StartsWith Kind.startsPrimary tokens := by
  cases derivation with
  | @literal token value same =>
      refine ⟨token, [], rfl, ?_⟩
      unfold Constant.ofToken? at same
      split at same <;> simp_all [Kind.startsPrimary]
  | reference kind => exact ⟨_, [], rfl, by rw [kind]; rfl⟩
  | group opens => exact ⟨_, _, rfl, by rw [opens]; rfl⟩

/-- A call starts with its callee, never with an operator. -/
theorem Call.starts {tokens : List Token} {tree : Expression} :
    Call tokens tree → StartsWith Kind.startsPrimary tokens
  | .primary derivation => derivation.starts
  | .empty callee _ _ => callee.starts.append _
  | .apply callee _ _ _ => callee.starts.append _

/-- An operand starts with a kind that starts expressions. -/
theorem Unary.starts {tokens : List Token} {tree : Expression} (derivation : Unary tokens tree) :
    StartsWith Kind.startsExpression tokens := by
  cases derivation with
  | operator sign operand => exact ⟨_, _, rfl, by simp [Kind.startsExpression, sign]⟩
  | call derivation =>
      obtain ⟨token, rest, same, kind⟩ := derivation.starts
      exact ⟨token, rest, same, by simp [Kind.startsExpression, kind]⟩

/-- A chain starts with a kind that starts expressions. -/
theorem Chain.starts {levels : List Level} {tokens : List Token} {tree : Expression} :
    Chain levels tokens tree → StartsWith Kind.startsExpression tokens
  | .operand derivation => derivation.starts
  | .single derivation => derivation.starts
  | .join left _ _ => left.starts.append _

/-- An assignment starts with a kind that starts expressions. -/
theorem Assignment.starts {tokens : List Token} {tree : Expression}
    (derivation : Assignment tokens tree) : StartsWith Kind.startsExpression tokens := by
  cases derivation with
  | assign isName => exact ⟨_, _, rfl, by rw [isName]; rfl⟩
  | increment isName => exact ⟨_, _, rfl, by rw [isName]; rfl⟩
  | decrement isName => exact ⟨_, _, rfl, by rw [isName]; rfl⟩
  | chain derivation => exact derivation.starts

/-- A list of arguments starts with a kind that starts expressions. -/
theorem Arguments.starts {tokens : List Token} {values : List Expression}
    (derivation : Arguments tokens values) : StartsWith Kind.startsExpression tokens := by
  cases derivation with
  | last derivation => exact derivation.starts
  | more derivation => exact derivation.starts.append _

end Grammar

end Offside
