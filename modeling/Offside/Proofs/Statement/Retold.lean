/-
This file proves that tokens on other lines derive the same statements on other lines.
-/

import Offside.Proofs.Lines
import Offside.Proofs.Statement.Grammar
import Mathlib.Data.List.Forall2

namespace Offside

/-- What is related to two lists in a row has two parts. -/
theorem forall₂_append_left {α β : Type} {related : α → β → Prop} {first second : List α}
    {whole : List β} (pairs : List.Forall₂ related (first ++ second) whole) :
    ∃ start rest, whole = start ++ rest ∧ List.Forall₂ related first start ∧
      List.Forall₂ related second rest := by
  induction first generalizing whole with
  | nil => exact ⟨[], whole, rfl, .nil, pairs⟩
  | cons head tail inductionHypothesis =>
      cases pairs with
      | cons pair pairs =>
          obtain ⟨start, rest, rfl, left, right⟩ := inductionHypothesis pairs
          exact ⟨_ :: start, rest, rfl, .cons pair left, right⟩

/-- What is related to a list with a middle has a middle. -/
theorem forall₂_middle_left {α β : Type} {related : α → β → Prop} {first second : List α}
    {middle : α} {whole : List β}
    (pairs : List.Forall₂ related (first ++ middle :: second) whole) :
    ∃ start other rest, whole = start ++ other :: rest ∧ List.Forall₂ related first start ∧
      related middle other ∧ List.Forall₂ related second rest := by
  obtain ⟨start, rest, rfl, left, right⟩ := forall₂_append_left pairs
  cases right with
  | cons pair right => exact ⟨start, _, _, rfl, left, pair, right⟩

/-- What is related to a list with a last item has a last item. -/
theorem forall₂_last_left {α β : Type} {related : α → β → Prop} {first : List α} {last : α}
    {whole : List β} (pairs : List.Forall₂ related (first ++ [last]) whole) :
    ∃ start other, whole = start ++ [other] ∧ List.Forall₂ related first start ∧
      related last other := by
  obtain ⟨start, other, rest, rfl, left, pair, right⟩ := forall₂_middle_left pairs
  cases right
  exact ⟨start, other, rfl, left, pair⟩

theorem Statement.relineAll_eq_map (line : Nat → Nat) (trees : List Statement) :
    Statement.relineAll line trees = trees.map (Statement.reline line) := by
  induction trees with
  | nil => rfl
  | cons tree rest inductionHypothesis => rw [relineAll, inductionHypothesis, List.map_cons]

/-- The same token on the line that belongs to its line. No tree holds the line of a dedent. -/
structure Retold (line : Nat → Nat) (first second : Token) : Prop where
  kind : second.kind = first.kind
  lexeme : second.lexeme = first.lexeme
  literal : second.literal = first.literal
  line : first.kind ≠ .dedent → second.line = line first.line

/-- The same tokens on other lines. -/
abbrev AllRetold (line : Nat → Nat) (first second : List Token) : Prop :=
  List.Forall₂ (Retold line) first second

namespace Retold

variable {line : Nat → Nat} {first second : Token}

theorem kind_eq {kind : Kind} (retold : Retold line first second) (same : first.kind = kind) :
    second.kind = kind := retold.kind.trans same

theorem line_eq {kind : Kind} (retold : Retold line first second) (same : first.kind = kind)
    (other : kind ≠ .dedent) : second.line = line first.line := retold.line (same ▸ other)

/-- A name that is retold is the same name on its own line. -/
theorem name (retold : Retold line first second) (isName : first.kind = .name) :
    (Name.ofToken first).reline line = .ofToken second := by
  unfold Name.ofToken Name.reline
  rw [retold.lexeme, retold.line_eq isName (by decide)]

/-- A literal that is retold is the same constant. -/
theorem constant (retold : Retold line first second) :
    Constant.ofToken? second = Constant.ofToken? first := by
  unfold Constant.ofToken?
  rw [retold.kind, retold.literal]

end Retold

namespace Grammar

open Cursor

/-- Tokens that are retold start with the same kind. -/
theorem headKind_retold {line : Nat → Nat} {tokens others : List Token}
    (retold : AllRetold line tokens others) : headKind others = headKind tokens := by
  cases retold with
  | nil => rfl
  | cons first rest => exact first.kind

theorem ne_dedent_of_connective {level : Level} {kind : Kind} {connective : Connective}
    (sign : level.connective? kind = some connective) : kind ≠ .dedent := by
  rintro rfl
  cases level <;> cases sign

theorem ne_dedent_of_unary {kind : Kind} {operator : UnaryOperator}
    (sign : UnaryOperator.ofKind? kind = some operator) : kind ≠ .dedent := by
  rintro rfl
  cases sign

theorem ne_dedent_of_literal {token : Token} {value : Constant}
    (literal : Constant.ofToken? token = some value) : token.kind ≠ .dedent := by
  intro dedent
  simp [Constant.ofToken?, dedent] at literal

/-- Joined expressions change their lines on both sides. -/
theorem Connective.join_reline (line : Nat → Nat) (connective : Connective)
    (left right : Expression) (place : Nat) : (connective.join left right place).reline line =
      connective.join (left.reline line) (right.reline line) (line place) := by
  cases connective <;> rfl

section Expressions

variable {line : Nat → Nat}

/-- A counted name that is retold is counted on its own line. -/
theorem stepped_reline (operator : BinaryOperator) {name sign name' sign' : Token}
    (first : Retold line name name') (second : Retold line sign sign') (isName : name.kind = .name)
    (other : sign.kind ≠ .dedent) :
    (Expression.stepped operator name sign).reline line = .stepped operator name' sign' := by
  unfold Expression.stepped
  simp only [Expression.reline, first.name isName, second.line other]

/-- The same tokens on other lines derive what belongs to other lines. -/
def Retells (line : Nat → Nat) (tokens : List Token) (derived : List Token → Prop) : Prop :=
  ∀ others, AllRetold line tokens others → derived others

mutual

/-- An assignment that is retold derives its tree on the other lines. -/
theorem Assignment.retold {tokens : List Token} {tree : Expression} :
    Assignment tokens tree → Retells line tokens (Assignment · (tree.reline line))
  | .assign isName equal value => by
      rintro _ (_ | ⟨first, _ | ⟨second, rest⟩⟩)
      rw [Expression.reline, first.name isName]
      exact .assign (first.kind_eq isName) (second.kind_eq equal) (value.retold _ rest)
  | .increment isName sign => by
      rintro _ (_ | ⟨first, _ | ⟨second, _ | _⟩⟩)
      rw [stepped_reline .add first second isName (by rw [sign]; decide)]
      exact .increment (first.kind_eq isName) (second.kind_eq sign)
  | .decrement isName sign => by
      rintro _ (_ | ⟨first, _ | ⟨second, _ | _⟩⟩)
      rw [stepped_reline .subtract first second isName (by rw [sign]; decide)]
      exact .decrement (first.kind_eq isName) (second.kind_eq sign)
  | .chain derivation => fun _ retold => .chain (derivation.retold _ retold)

/-- A chain that is retold derives its tree on the other lines. -/
theorem Chain.retold {levels : List Level} {tokens : List Token} {tree : Expression} :
    Chain levels tokens tree → Retells line tokens (Chain levels · (tree.reline line))
  | .operand derivation => fun _ retold => .operand (derivation.retold _ retold)
  | .single derivation => fun _ retold => .single (derivation.retold _ retold)
  | .join left sign right => by
      intro others retold
      obtain ⟨start, place, rest, rfl, first, second, third⟩ := forall₂_middle_left retold
      rw [Connective.join_reline, ← second.line (ne_dedent_of_connective sign)]
      exact .join (left.retold _ first) (by rwa [second.kind]) (right.retold _ third)

/-- An operand that is retold derives its tree on the other lines. -/
theorem Unary.retold {tokens : List Token} {tree : Expression} :
    Unary tokens tree → Retells line tokens (Unary · (tree.reline line))
  | .operator sign operand => by
      rintro _ (_ | ⟨first, rest⟩)
      rw [Expression.reline, ← first.line (ne_dedent_of_unary sign)]
      exact .operator (by rwa [first.kind]) (operand.retold _ rest)
  | .call derivation => fun _ retold => .call (derivation.retold _ retold)

/-- A call that is retold derives its tree on the other lines. -/
theorem Call.retold {tokens : List Token} {tree : Expression} :
    Call tokens tree → Retells line tokens (Call · (tree.reline line))
  | .primary derivation => fun _ retold => .primary (derivation.retold _ retold)
  | .empty callee opening closing => by
      intro others retold
      obtain ⟨start, place, rest, rfl, first, second, _ | ⟨third, _ | _⟩⟩ :=
        forall₂_middle_left retold
      rw [Expression.reline, ← second.line_eq opening (by decide)]
      exact .empty (callee.retold _ first) (second.kind_eq opening) (third.kind_eq closing)
  | .apply callee opening inside closing => by
      intro others retold
      obtain ⟨start, place, rest, rfl, first, second, tail⟩ := forall₂_middle_left retold
      obtain ⟨middle, last, rfl, third, fourth⟩ := forall₂_last_left tail
      rw [Expression.reline, ← second.line_eq opening (by decide)]
      exact .apply (callee.retold _ first) (second.kind_eq opening) (inside.retold _ third)
        (fourth.kind_eq closing)

/-- A list of arguments that is retold derives its trees on the other lines. -/
theorem Arguments.retold {tokens : List Token} {values : List Expression} :
    Arguments tokens values →
      Retells line tokens (Arguments · (Expression.relineAll line values))
  | .last derivation => fun _ retold => .last (derivation.retold _ retold)
  | .more derivation comma values => by
      intro others retold
      obtain ⟨start, place, rest, rfl, first, second, third⟩ := forall₂_middle_left retold
      exact .more (derivation.retold _ first) (second.kind_eq comma) (values.retold _ third)

/-- A primary that is retold derives its tree on the other lines. -/
theorem Primary.retold {tokens : List Token} {tree : Expression} :
    Primary tokens tree → Retells line tokens (Primary · (tree.reline line))
  | .literal same => by
      rintro _ (_ | ⟨first, _ | _⟩)
      rw [Expression.reline, ← first.line (ne_dedent_of_literal same)]
      exact .literal (first.constant.trans same)
  | .reference isName => by
      rintro _ (_ | ⟨first, _ | _⟩)
      rw [Expression.reline, first.name isName]
      exact .reference (first.kind_eq isName)
  | .group opening inside closing => by
      rintro _ (_ | ⟨first, tail⟩)
      obtain ⟨middle, last, rfl, second, third⟩ := forall₂_last_left tail
      exact .group (first.kind_eq opening) (inside.retold _ second) (third.kind_eq closing)

end

end Expressions

section Parts

variable {line : Nat → Nat} {tokens others : List Token}

/-- A terminator that is retold is a terminator. -/
theorem terminator_retold {first second : Token} (retold : Retold line first second)
    (stop : first.kind.isTerminator = true) : second.kind.isTerminator = true := by
  rwa [retold.kind]

/-- An expression statement that is retold derives its tree on the other lines. -/
theorem Simple.retold {tree : Statement} (derivation : Simple tokens tree)
    (retold : AllRetold line tokens others) : Simple others (tree.reline line) := by
  cases derivation with
  | intro value stop =>
      obtain ⟨start, last, rfl, first, second⟩ := forall₂_last_left retold
      exact .intro (value.retold _ first) (terminator_retold second stop)

/-- A declaration that is retold derives its tree on the other lines. -/
theorem Declaration.retold {tree : Statement} (derivation : Declaration tokens tree)
    (retold : AllRetold line tokens others) : Declaration others (tree.reline line) := by
  cases derivation with
  | bare isName stop =>
      obtain _ | ⟨first, _ | ⟨second, _ | _⟩⟩ := retold
      rw [Statement.reline, first.name isName]
      exact .bare (first.kind_eq isName) (terminator_retold second stop)
  | initial isName equal value stop =>
      obtain _ | ⟨first, _ | ⟨second, tail⟩⟩ := retold
      obtain ⟨middle, last, rfl, third, fourth⟩ := forall₂_last_left tail
      rw [Statement.reline, first.name isName]
      exact .initial (first.kind_eq isName) (second.kind_eq equal) (value.retold _ third)
        (terminator_retold fourth stop)

/-- A return that is retold derives its value on the other lines. -/
theorem Returned.retold {value : Option Expression} (derivation : Returned tokens value)
    (retold : AllRetold line tokens others) :
    Returned others (value.map (Expression.reline line)) := by
  cases derivation with
  | nothing stop =>
      obtain _ | ⟨first, _ | _⟩ := retold
      exact .nothing (terminator_retold first stop)
  | value value stop =>
      obtain ⟨start, last, rfl, first, second⟩ := forall₂_last_left retold
      exact .value (value.retold _ first) (terminator_retold second stop)

/-- An initializer that is retold derives its tree on the other lines. -/
theorem Initializer.retold {tree : Option Statement} (derivation : Initializer tokens tree)
    (retold : AllRetold line tokens others) :
    Initializer others (tree.map (Statement.reline line)) := by
  cases derivation with
  | absent stop =>
      obtain _ | ⟨first, _ | _⟩ := retold
      exact .absent (first.kind_eq stop)
  | declaration word declared =>
      obtain _ | ⟨first, rest⟩ := retold
      exact .declaration (first.kind_eq word) (declared.retold rest)
  | simple derivation => exact .simple (derivation.retold retold)

/-- A condition that is retold derives its tree on the other lines. -/
theorem Condition.retold {tree : Expression} (derivation : Condition tokens tree)
    (retold : AllRetold line tokens others) : Condition others (tree.reline line) := by
  cases derivation with
  | absent stop =>
      obtain _ | ⟨first, _ | _⟩ := retold
      rw [Expression.reline, ← first.line_eq stop (by decide)]
      exact .absent (first.kind_eq stop)
  | present value stop =>
      obtain ⟨start, last, rfl, first, second⟩ := forall₂_last_left retold
      exact .present (value.retold _ first) (second.kind_eq stop)

/-- An increment that is retold derives its tree on the other lines. -/
theorem Increment.retold {tree : Option Expression} (derivation : Increment tokens tree)
    (retold : AllRetold line tokens others) :
    Increment others (tree.map (Expression.reline line)) := by
  cases derivation with
  | absent =>
      cases retold
      exact .absent
  | present value => exact .present (value.retold _ retold)

/-- Clauses that are retold derive their trees on the other lines. -/
theorem Clauses.retold {initializer : Option Statement} {condition : Expression}
    {increment : Option Expression} (derivation : Clauses tokens initializer condition increment)
    (retold : AllRetold line tokens others) :
    Clauses others (initializer.map (Statement.reline line)) (condition.reline line)
      (increment.map (Expression.reline line)) := by
  cases derivation with
  | intro first second third =>
      obtain ⟨start, tail, rfl, one, rest⟩ := forall₂_append_left retold
      obtain ⟨middle, last, rfl, two, three⟩ := forall₂_append_left rest
      exact .intro (first.retold one) (second.retold two) (third.retold three)

/-- A header that is retold derives its trees on the other lines. -/
theorem Header.retold {initializer : Option Statement} {condition : Expression}
    {increment : Option Expression} (derivation : Header tokens initializer condition increment)
    (retold : AllRetold line tokens others) :
    Header others (initializer.map (Statement.reline line)) (condition.reline line)
      (increment.map (Expression.reline line)) := by
  cases derivation with
  | parenthesized opening clauses closing =>
      obtain _ | ⟨first, tail⟩ := retold
      obtain ⟨middle, last, rfl, second, third⟩ := forall₂_last_left tail
      exact .parenthesized (first.kind_eq opening) (clauses.retold second) (third.kind_eq closing)
  | plain bare clauses => exact .plain (by rwa [headKind_retold retold]) (clauses.retold retold)

/-- A list of names that is retold derives its names on the other lines. -/
theorem Names.retold {names : List Name} (derivation : Names tokens names)
    (retold : AllRetold line tokens others) : Names others (names.map (Name.reline line)) := by
  induction derivation generalizing others with
  | last isName =>
      obtain _ | ⟨first, _ | _⟩ := retold
      rw [List.map_singleton, first.name isName]
      exact .last (first.kind_eq isName)
  | more isName comma _ inductionHypothesis =>
      obtain _ | ⟨first, _ | ⟨second, rest⟩⟩ := retold
      rw [List.map_cons, first.name isName]
      exact .more (first.kind_eq isName) (second.kind_eq comma) (inductionHypothesis rest)

/-- A list of parameters that is retold derives its names on the other lines. -/
theorem Parameters.retold {names : List Name} (derivation : Parameters tokens names)
    (retold : AllRetold line tokens others) : Parameters others (names.map (Name.reline line)) := by
  cases derivation with
  | none =>
      cases retold
      exact .none
  | some derivation => exact .some (derivation.retold retold)

theorem LineBreak.retold (derivation : LineBreak tokens) (retold : AllRetold line tokens others) :
    LineBreak others := by
  cases derivation with
  | absent =>
      cases retold
      exact .absent
  | present newline =>
      obtain _ | ⟨first, _ | _⟩ := retold
      exact .present (first.kind_eq newline)

end Parts

section Statements

variable {line : Nat → Nat}

/-- The tree of a loop holds the parts of its header. -/
theorem for_reline (line : Nat → Nat) (initializer : Option Statement) (condition : Expression)
    (increment : Option Expression) (body : Statement) :
    (Statement.block (initializer.toList ++ [.while_ condition
      (.block (body :: (increment.map Statement.expression).toList))])).reline line =
    .block ((initializer.map (Statement.reline line)).toList ++ [.while_ (condition.reline line)
      (.block (body.reline line ::
        ((increment.map (Expression.reline line)).map Statement.expression).toList))]) := by
  cases initializer <;> cases increment <;> rfl

mutual

/-- A statement that is retold derives its tree on the other lines. -/
theorem Derives.retold {tokens rest : List Token} {tree : Statement} :
    Derives tokens tree rest → Retells line tokens fun others =>
      ∃ after, AllRetold line rest after ∧ Derives others (tree.reline line) after
  | .if_ word condition then_ success bare => by
      rintro _ (_ | ⟨first, tail⟩)
      obtain ⟨header, place, inside, rfl, second, third, fourth⟩ := forall₂_middle_left tail
      obtain ⟨after, further, derivation⟩ := success.retold _ fourth
      exact ⟨after, further, .if_ (first.kind_eq word) (condition.retold _ second)
        (third.kind_eq then_) derivation (by rwa [headKind_retold further])⟩
  | .ifElse word condition then_ success else_ next failure => by
      rintro _ (_ | ⟨first, tail⟩)
      obtain ⟨header, place, inside, rfl, second, third, fourth⟩ := forall₂_middle_left tail
      obtain ⟨_, _ | ⟨fifth, _ | ⟨sixth, seventh⟩⟩, derivation⟩ := success.retold _ fourth
      obtain ⟨after, further, other⟩ := failure.retold _ seventh
      exact ⟨after, further, .ifElse (first.kind_eq word) (condition.retold _ second)
        (third.kind_eq then_) derivation (fifth.kind_eq else_) (sixth.kind_eq next) other⟩
  | .while_ word condition then_ body => by
      rintro _ (_ | ⟨first, tail⟩)
      obtain ⟨header, place, inside, rfl, second, third, fourth⟩ := forall₂_middle_left tail
      obtain ⟨after, further, derivation⟩ := body.retold _ fourth
      exact ⟨after, further, .while_ (first.kind_eq word) (condition.retold _ second)
        (third.kind_eq then_) derivation⟩
  | .for_ word header then_ body => by
      rintro _ (_ | ⟨first, tail⟩)
      obtain ⟨start, place, inside, rfl, second, third, fourth⟩ := forall₂_middle_left tail
      obtain ⟨after, further, derivation⟩ := body.retold _ fourth
      rw [for_reline]
      exact ⟨after, further, .for_ (first.kind_eq word) (header.retold second)
        (third.kind_eq then_) derivation⟩
  | .func word isName colon parameters equal gap body => by
      rintro _ (_ | ⟨first, _ | ⟨second, _ | ⟨third, tail⟩⟩⟩)
      obtain ⟨start, place, rest, rfl, fourth, fifth, inside⟩ := forall₂_middle_left tail
      obtain ⟨break_, block, rfl, sixth, seventh⟩ := forall₂_append_left inside
      obtain ⟨after, further, derivation⟩ := body.retold _ seventh
      rw [Statement.reline, second.name isName]
      exact ⟨after, further, .func (first.kind_eq word) (second.kind_eq isName)
        (third.kind_eq colon) (parameters.retold fourth) (fifth.kind_eq equal) (gap.retold sixth)
        derivation⟩
  | .let_ word declared => by
      rintro _ (_ | ⟨first, tail⟩)
      obtain ⟨start, after, rfl, second, further⟩ := forall₂_append_left tail
      exact ⟨after, further, .let_ (first.kind_eq word) (declared.retold second)⟩
  | .return_ word value => by
      rintro _ (_ | ⟨first, tail⟩)
      obtain ⟨start, after, rfl, second, further⟩ := forall₂_append_left tail
      rw [Statement.reline, ← first.line_eq word (by decide)]
      exact ⟨after, further, .return_ (first.kind_eq word) (value.retold second)⟩
  | .block derivation => by
      intro others retold
      obtain ⟨after, further, block⟩ := derivation.retold _ retold
      exact ⟨after, further, .block block⟩
  | .simple derivation => by
      intro others retold
      obtain ⟨start, after, rfl, first, further⟩ := forall₂_append_left retold
      exact ⟨after, further, .simple (derivation.retold first)⟩

/-- A block that is retold derives its trees on the other lines. -/
theorem Block.retold {tokens rest : List Token} {body : List Statement} :
    Block tokens body rest → Retells line tokens fun others =>
      ∃ after, AllRetold line rest after ∧ Block others (Statement.relineAll line body) after
  | .closed indent inside dedent => by
      rintro _ (_ | ⟨first, tail⟩)
      obtain ⟨_, _ | ⟨last, further⟩, derivation⟩ := inside.retold _ tail
      exact ⟨_, further, .closed (first.kind_eq indent) derivation (last.kind_eq dedent)⟩
  | .ended indent inside => by
      rintro _ (_ | ⟨first, tail⟩)
      obtain ⟨_, _ | _, derivation⟩ := inside.retold _ tail
      exact ⟨[], .nil, .ended (first.kind_eq indent) derivation⟩

/-- A list of statements that is retold derives its trees on the other lines. -/
theorem Sequence.retold {tokens rest : List Token} {trees : List Statement} :
    Sequence tokens trees rest → Retells line tokens fun others =>
      ∃ after, AllRetold line rest after ∧ Sequence others (Statement.relineAll line trees) after
  | .nil => fun others retold => ⟨others, retold, .nil⟩
  | .cons first more => by
      intro others retold
      obtain ⟨middle, further, derivation⟩ := first.retold _ retold
      obtain ⟨after, last, sequence⟩ := more.retold _ further
      exact ⟨after, last, .cons derivation sequence⟩

end

end Statements

end Grammar

end Offside
