/-
This file holds the grammar of statements.
-/

import Offside.Proofs.Expression.Grammar
import Offside.Proofs.Run

namespace Offside.Grammar

open Cursor

/-- An expression and its terminator. -/
inductive Simple : List Token → Statement → Prop
  | intro {tokens : List Token} {stop : Token} {tree : Expression} :
      Assignment tokens tree → stop.kind.isTerminator = true →
      Simple (tokens ++ [stop]) (.expression tree)

/-- A declaration without its keyword. -/
inductive Declaration : List Token → Statement → Prop
  | bare {name stop : Token} : name.kind = .name → stop.kind.isTerminator = true →
      Declaration [name, stop] (.let_ (.ofToken name) none)
  | initial {name equal stop : Token} {tokens : List Token} {tree : Expression} :
      name.kind = .name → equal.kind = .symbol .equal → Assignment tokens tree →
      stop.kind.isTerminator = true →
      Declaration (name :: equal :: (tokens ++ [stop])) (.let_ (.ofToken name) (some tree))

/-- What a function returns, with the terminator. -/
inductive Returned : List Token → Option Expression → Prop
  | nothing {stop : Token} : stop.kind.isTerminator = true → Returned [stop] none
  | value {tokens : List Token} {stop : Token} {tree : Expression} :
      Assignment tokens tree → stop.kind.isTerminator = true →
      Returned (tokens ++ [stop]) (some tree)

inductive Initializer : List Token → Option Statement → Prop
  | absent {stop : Token} : stop.kind = .symbol .semicolon → Initializer [stop] none
  | declaration {word : Token} {tokens : List Token} {tree : Statement} :
      word.kind = .keyword .let_ → Declaration tokens tree →
      Initializer (word :: tokens) (some tree)
  | simple {tokens : List Token} {tree : Statement} :
      Simple tokens tree → Initializer tokens (some tree)

/-- The condition of a loop with its semicolon. An absent one is true. -/
inductive Condition : List Token → Expression → Prop
  | absent {stop : Token} : stop.kind = .symbol .semicolon →
      Condition [stop] (.constant (.bool true) stop.line)
  | present {tokens : List Token} {stop : Token} {tree : Expression} :
      Assignment tokens tree → stop.kind = .symbol .semicolon → Condition (tokens ++ [stop]) tree

inductive Increment : List Token → Option Expression → Prop
  | absent : Increment [] none
  | present {tokens : List Token} {tree : Expression} :
      Assignment tokens tree → Increment tokens (some tree)

inductive Clauses : List Token → Option Statement → Expression → Option Expression → Prop
  | intro {first second third : List Token} {initializer : Option Statement}
      {condition : Expression} {increment : Option Expression} :
      Initializer first initializer → Condition second condition → Increment third increment →
      Clauses (first ++ (second ++ third)) initializer condition increment

/-- Clauses that start with a parenthesis must end with one. -/
inductive Header : List Token → Option Statement → Expression → Option Expression → Prop
  | parenthesized {opening closing : Token} {tokens : List Token} {initializer : Option Statement}
      {condition : Expression} {increment : Option Expression} :
      opening.kind = .symbol .leftParen → Clauses tokens initializer condition increment →
      closing.kind = .symbol .rightParen →
      Header (opening :: (tokens ++ [closing])) initializer condition increment
  | plain {tokens : List Token} {initializer : Option Statement} {condition : Expression}
      {increment : Option Expression} :
      headKind tokens ≠ .symbol .leftParen → Clauses tokens initializer condition increment →
      Header tokens initializer condition increment

/-- At least one name, with commas between them. -/
inductive Names : List Token → List Name → Prop
  | last {token : Token} : token.kind = .name → Names [token] [.ofToken token]
  | more {token comma : Token} {tokens : List Token} {names : List Name} :
      token.kind = .name → comma.kind = .symbol .comma → Names tokens names →
      Names (token :: comma :: tokens) (.ofToken token :: names)

inductive Parameters : List Token → List Name → Prop
  | none : Parameters [] []
  | some {tokens : List Token} {names : List Name} : Names tokens names → Parameters tokens names

/-- A line break may stand before the body of a function. -/
inductive LineBreak : List Token → Prop
  | absent : LineBreak []
  | present {token : Token} : token.kind = .newline → LineBreak [token]

/-
The next relations hold between the tokens before a statement, its tree and the tokens after it:
a block may lack its dedent only where no token is left, and an `else` belongs to the nearest `if`
because an `if` without one never stands before an `else`.
-/

mutual

inductive Derives : List Token → Statement → List Token → Prop
  | if_ {word then_ : Token} {tokens inside rest : List Token} {condition : Expression}
      {success : Statement} :
      word.kind = .keyword .if_ → Assignment tokens condition → then_.kind = .keyword .then_ →
      Derives inside success rest → headKind rest ≠ .keyword .else_ →
      Derives (word :: (tokens ++ then_ :: inside)) (.if_ condition success none) rest
  | ifElse {word then_ else_ next : Token} {tokens inside others rest : List Token}
      {condition : Expression} {success failure : Statement} :
      word.kind = .keyword .if_ → Assignment tokens condition → then_.kind = .keyword .then_ →
      Derives inside success (else_ :: next :: others) → else_.kind = .keyword .else_ →
      next.kind = .keyword .then_ → Derives others failure rest →
      Derives (word :: (tokens ++ then_ :: inside)) (.if_ condition success (some failure)) rest
  | while_ {word then_ : Token} {tokens inside rest : List Token} {condition : Expression}
      {body : Statement} :
      word.kind = .keyword .while_ → Assignment tokens condition → then_.kind = .keyword .then_ →
      Derives inside body rest →
      Derives (word :: (tokens ++ then_ :: inside)) (.while_ condition body) rest
  | for_ {word then_ : Token} {tokens inside rest : List Token} {initializer : Option Statement}
      {condition : Expression} {increment : Option Expression} {body : Statement} :
      word.kind = .keyword .for_ → Header tokens initializer condition increment →
      then_.kind = .keyword .then_ → Derives inside body rest →
      Derives (word :: (tokens ++ then_ :: inside))
        (.block (initializer.toList ++ [.while_ condition
          (.block (body :: (increment.map Statement.expression).toList))])) rest
  | func {word name colon equal : Token} {tokens gap inside rest : List Token} {names : List Name}
      {body : List Statement} :
      word.kind = .keyword .func → name.kind = .name → colon.kind = .symbol .colon →
      Parameters tokens names → equal.kind = .symbol .equal → LineBreak gap →
      Block inside body rest →
      Derives (word :: name :: colon :: (tokens ++ equal :: (gap ++ inside)))
        (.func (.ofToken name) names body) rest
  | let_ {word : Token} {tokens rest : List Token} {tree : Statement} :
      word.kind = .keyword .let_ → Declaration tokens tree →
      Derives (word :: (tokens ++ rest)) tree rest
  | return_ {word : Token} {tokens rest : List Token} {value : Option Expression} :
      word.kind = .keyword .return_ → Returned tokens value →
      Derives (word :: (tokens ++ rest)) (.return_ word.line value) rest
  | block {tokens rest : List Token} {body : List Statement} :
      Block tokens body rest → Derives tokens (.block body) rest
  | simple {tokens rest : List Token} {tree : Statement} :
      Simple tokens tree → Derives (tokens ++ rest) tree rest

inductive Block : List Token → List Statement → List Token → Prop
  | closed {indent dedent : Token} {inside rest : List Token} {body : List Statement} :
      indent.kind = .indent → Sequence inside body (dedent :: rest) → dedent.kind = .dedent →
      Block (indent :: inside) body rest
  | ended {indent : Token} {inside : List Token} {body : List Statement} :
      indent.kind = .indent → Sequence inside body [] → Block (indent :: inside) body []

inductive Sequence : List Token → List Statement → List Token → Prop
  | nil {rest : List Token} : Sequence rest [] rest
  | cons {tokens middle rest : List Token} {first : Statement} {others : List Statement} :
      Derives tokens first middle → Sequence middle others rest →
      Sequence tokens (first :: others) rest

end

/-- A statement starts with its keyword, with its indent or with an expression. -/
def startsLine (kind : Kind) : Bool :=
  kind.startsStatement || kind == .indent || kind.startsExpression

theorem startsLine_of_expression {tokens : List Token}
    (starts : StartsWith Kind.startsExpression tokens) : StartsWith startsLine tokens := by
  obtain ⟨token, rest, same, kind⟩ := starts
  exact ⟨token, rest, same, by simp [startsLine, kind]⟩

/-- An expression statement starts with a kind that starts expressions. -/
theorem Simple.starts {tokens : List Token} {tree : Statement} (derivation : Simple tokens tree) :
    StartsWith Kind.startsExpression tokens := by
  cases derivation with
  | intro derivation => exact derivation.starts.append _

/-- A block starts with an indent. -/
theorem Block.starts {tokens rest : List Token} {body : List Statement}
    (derivation : Block tokens body rest) : ∃ token inside, tokens = token :: inside ∧
      token.kind = .indent := by
  cases derivation with
  | closed indent => exact ⟨_, _, rfl, indent⟩
  | ended indent => exact ⟨_, _, rfl, indent⟩

/-- A statement starts with a kind that starts statements. -/
theorem Derives.starts {tokens rest : List Token} {tree : Statement}
    (derivation : Derives tokens tree rest) : StartsWith startsLine tokens := by
  cases derivation with
  | if_ word => exact ⟨_, _, rfl, by rw [word]; rfl⟩
  | ifElse word => exact ⟨_, _, rfl, by rw [word]; rfl⟩
  | while_ word => exact ⟨_, _, rfl, by rw [word]; rfl⟩
  | for_ word => exact ⟨_, _, rfl, by rw [word]; rfl⟩
  | func word => exact ⟨_, _, rfl, by rw [word]; rfl⟩
  | let_ word => exact ⟨_, _, rfl, by rw [word]; rfl⟩
  | return_ word => exact ⟨_, _, rfl, by rw [word]; rfl⟩
  | block derivation =>
      obtain ⟨token, inside, same, indent⟩ := derivation.starts
      exact ⟨token, inside, same, by rw [indent]; rfl⟩
  | simple derivation => exact startsLine_of_expression (derivation.starts.append _)

mutual

/-- Every statement has tokens of its own. -/
theorem Derives.shorter {tokens rest : List Token} {tree : Statement} :
    Derives tokens tree rest → rest.length < tokens.length
  | .if_ _ _ _ success _ => by
      have inner := success.shorter
      simp only [List.length_cons, List.length_append]
      omega
  | .ifElse _ _ _ success _ _ failure => by
      have inner := success.shorter
      have other := failure.shorter
      simp only [List.length_cons, List.length_append] at *
      omega
  | .while_ _ _ _ body => by
      have inner := body.shorter
      simp only [List.length_cons, List.length_append]
      omega
  | .for_ _ _ _ body => by
      have inner := body.shorter
      simp only [List.length_cons, List.length_append]
      omega
  | .func _ _ _ _ _ _ body => by
      have inner := body.shorter
      simp only [List.length_cons, List.length_append]
      omega
  | .let_ _ _ => by
      simp only [List.length_cons, List.length_append]
      omega
  | .return_ _ _ => by
      simp only [List.length_cons, List.length_append]
      omega
  | .block derivation => derivation.shorter
  | .simple derivation => by
      have nonempty := derivation.starts.nonempty
      rw [List.length_append]
      omega

/-- A block takes at least one token. -/
theorem Block.shorter {tokens rest : List Token} {body : List Statement} :
    Block tokens body rest → rest.length < tokens.length
  | .closed _ inside _ => by
      have inner := inside.noLonger
      rw [List.length_cons] at inner ⊢
      omega
  | .ended _ _ => Nat.succ_pos _

/-- A list of statements leaves no more tokens than there were. -/
theorem Sequence.noLonger {tokens rest : List Token} {trees : List Statement} :
    Sequence tokens trees rest → rest.length ≤ tokens.length
  | .nil => Nat.le_refl _
  | .cons first others => by
      have start := first.shorter
      have further := others.noLonger
      omega

end

end Offside.Grammar
