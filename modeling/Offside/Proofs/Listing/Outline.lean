/-
This file says what a nested listing shows of a tree.
-/

import Offside.Proofs.Listing.Nest
import Offside.Proofs.Number.Reading

namespace Offside

/-- A nest starts with the sign of what it lists. -/
def Nest.node (sign : String) (parts : List Nest) : Nest := .list (.word sign :: parts)

mutual

def Expression.nest : Expression → Nest
  | .constant value _ => .word value.nested
  | .reference name => .word name.text
  | .group inner => .node "group" [inner.nest]
  | .unary operator operand _ => .node operator.sign [operand.nest]
  | .binary operator left right _ => .node operator.sign [left.nest, right.nest]
  | .logic operator left right _ => .node operator.sign [left.nest, right.nest]
  | .assign name value => .node "=" [.word name.text, value.nest]
  | .call callee arguments _ => .node "call" (callee.nest :: Expression.nestAll arguments)

def Expression.nestAll : List Expression → List Nest
  | [] => []
  | expression :: rest => expression.nest :: Expression.nestAll rest

end

mutual

def Statement.nest : Statement → Nest
  | .expression value => .node "expr" [value.nest]
  | .if_ condition success failure =>
    .node "if" (condition.nest :: success.nest :: Statement.nestFailure failure)
  | .while_ condition body => .node "while" [condition.nest, body.nest]
  | .func name parameters body =>
    .node "func" (.word name.text :: .list (parameters.map fun parameter => .word parameter.text) ::
      Statement.nestAll body)
  | .let_ name initial => .node "let" (.word name.text :: (initial.map Expression.nest).toList)
  | .return_ _ value => .node "return" (value.map Expression.nest).toList
  | .block statements => .node "block" (Statement.nestAll statements)

def Statement.nestFailure : Option Statement → List Nest
  | none => []
  | some statement => [statement.nest]

def Statement.nestAll : List Statement → List Nest
  | [] => []
  | statement :: rest => statement.nest :: Statement.nestAll rest

end

def Name.outline (name : Name) : Name := ⟨name.text, 0⟩

/-- An infinite number is listed as a name. -/
def Constant.outline : Constant → Expression
  | .number value =>
    if value.toBits.toNat = Number.infinityBits then .reference ⟨"inf", 0⟩
    else .constant (.number value) 0
  | value => .constant value 0

mutual

/-- This is what a nested listing shows of an expression. -/
def Expression.outline : Expression → Expression
  | .constant value _ => value.outline
  | .reference name => .reference name.outline
  | .group inner => .group inner.outline
  | .unary operator operand _ => .unary operator operand.outline 0
  | .binary operator left right _ => .binary operator left.outline right.outline 0
  | .logic operator left right _ => .logic operator left.outline right.outline 0
  | .assign name value => .assign name.outline value.outline
  | .call callee arguments _ => .call callee.outline (Expression.outlineAll arguments) 0

def Expression.outlineAll : List Expression → List Expression
  | [] => []
  | expression :: rest => expression.outline :: Expression.outlineAll rest

end

mutual

def Statement.outline : Statement → Statement
  | .expression value => .expression value.outline
  | .if_ condition success failure =>
    .if_ condition.outline success.outline (Statement.outlineFailure failure)
  | .while_ condition body => .while_ condition.outline body.outline
  | .func name parameters body =>
    .func name.outline (parameters.map Name.outline) (Statement.outlineAll body)
  | .let_ name initial => .let_ name.outline (initial.map Expression.outline)
  | .return_ _ value => .return_ 0 (value.map Expression.outline)
  | .block statements => .block (Statement.outlineAll statements)

def Statement.outlineFailure : Option Statement → Option Statement
  | none => none
  | some statement => some statement.outline

def Statement.outlineAll : List Statement → List Statement
  | [] => []
  | statement :: rest => statement.outline :: Statement.outlineAll rest

end

section Constants

open Number

/-- A number is listed by its magnitude. -/
theorem toList_listedNumber {value : Float} (magnitude : IsMagnitude value) :
    (listedNumber value).toList = magnitudeText listed value.toBits.toNat := by
  rw [listedNumber, String.toList_ofList, text_of_isMagnitude listed magnitude]

/-- An infinite number is listed as a name. -/
theorem listedNumber_infinite {value : Float} (infinite : value.toBits.toNat = infinityBits) :
    listedNumber value = "inf" := by
  rw [← String.toList_inj, toList_listedNumber (Nat.le_of_eq infinite), infinite, magnitudeText,
    if_pos (Nat.le_refl _)]
  rfl

/-- A string is listed in quotes. -/
theorem Constant.toList_string (value : String) :
    (Constant.string value).nested.toList = '"' :: (value.toList ++ ['"']) := by
  simp [Constant.nested]

end Constants

section Texts

/-- The text of a node is its sign and the texts of its parts. -/
theorem Nest.toList_node {sign : String} {parts : List String} {nests : List Nest}
    (same : parts.map String.toList = nests.map Nest.text) :
    (nestedList (sign :: parts)).toList = (Nest.node sign nests).text :=
  Nest.toList_nestedList (by rw [List.map_cons, List.map_cons, same]; rfl)

mutual

/-- The listing of an expression is the text of its nest. -/
theorem Expression.toList_nested :
    ∀ expression : Expression, expression.nested.toList = expression.nest.text
  | .constant _ _ => rfl
  | .reference _ => rfl
  | .group inner => Nest.toList_node (by simp [inner.toList_nested])
  | .unary _ operand _ => Nest.toList_node (by simp [operand.toList_nested])
  | .binary _ left right _ =>
    Nest.toList_node (by simp [left.toList_nested, right.toList_nested])
  | .logic _ left right _ =>
    Nest.toList_node (by simp [left.toList_nested, right.toList_nested])
  | .assign _ value => Nest.toList_node (by simp [value.toList_nested, Nest.text])
  | .call callee arguments _ =>
    Nest.toList_node (by simp [callee.toList_nested, Expression.toList_nestedAll arguments])

/-- The listings of expressions are the texts of their nests. -/
theorem Expression.toList_nestedAll : ∀ expressions : List Expression,
    (Expression.nestedAll expressions).map String.toList =
      (Expression.nestAll expressions).map Nest.text
  | [] => rfl
  | expression :: rest => by
      simp [Expression.nestedAll, Expression.nestAll, expression.toList_nested,
        Expression.toList_nestedAll rest]

end

mutual

/-- The listing of a statement is the text of its nest. -/
theorem Statement.toList_nested :
    ∀ statement : Statement, statement.nested.toList = statement.nest.text
  | .expression value => Nest.toList_node (by simp [value.toList_nested])
  | .if_ condition success none =>
    Nest.toList_node (by
      simp [condition.toList_nested, success.toList_nested, Statement.nestFailure])
  | .if_ condition success (some failure) =>
    Nest.toList_node (by
      simp [condition.toList_nested, success.toList_nested, failure.toList_nested,
        Statement.nestFailure])
  | .while_ condition body =>
    Nest.toList_node (by simp [condition.toList_nested, body.toList_nested])
  | .func name parameters body => Nest.toList_node (by
      have names : (nestedList (parameters.map Name.text)).toList =
          (Nest.list (parameters.map fun parameter => .word parameter.text)).text :=
        Nest.toList_nestedList (by simp [Nest.text])
      simp [names, Statement.toList_nestedAll body, Nest.text])
  | .let_ _ none => Nest.toList_node (by simp [Nest.text])
  | .let_ _ (some initial) => Nest.toList_node (by simp [initial.toList_nested, Nest.text])
  | .return_ _ none => Nest.toList_node rfl
  | .return_ _ (some value) => Nest.toList_node (by simp [value.toList_nested])
  | .block statements => Nest.toList_node (Statement.toList_nestedAll statements)

/-- The listings of statements are the texts of their nests. -/
theorem Statement.toList_nestedAll : ∀ statements : List Statement,
    (Statement.nestedAll statements).map String.toList =
      (Statement.nestAll statements).map Nest.text
  | [] => rfl
  | statement :: rest => by
      simp [Statement.nestedAll, Statement.nestAll, statement.toList_nested,
        Statement.toList_nestedAll rest]

end

end Texts

section Outlines

/-- A constant and its outline have the same listing. -/
theorem Constant.nested_outline (value : Constant) : value.outline.nested = value.nested := by
  match value with
  | .nil | .bool _ | .string _ => rfl
  | .number value =>
      rw [Constant.outline]
      split
      next infinite => exact (listedNumber_infinite infinite).symm
      next => rfl

mutual

/-- An expression and its outline have the same listing. -/
theorem Expression.nested_outline :
    ∀ expression : Expression, expression.outline.nested = expression.nested
  | .constant value _ => value.nested_outline
  | .reference _ => rfl
  | .group inner => by simp [Expression.outline, Expression.nested, inner.nested_outline]
  | .unary _ operand _ => by simp [Expression.outline, Expression.nested, operand.nested_outline]
  | .binary _ left right _ => by
      simp [Expression.outline, Expression.nested, left.nested_outline, right.nested_outline]
  | .logic _ left right _ => by
      simp [Expression.outline, Expression.nested, left.nested_outline, right.nested_outline]
  | .assign _ value => by
      simp [Expression.outline, Expression.nested, value.nested_outline, Name.outline]
  | .call callee arguments _ => by
      simp [Expression.outline, Expression.nested, callee.nested_outline,
        Expression.nestedAll_outlineAll arguments]

/-- Expressions and their outlines have the same listings. -/
theorem Expression.nestedAll_outlineAll : ∀ expressions : List Expression,
    Expression.nestedAll (Expression.outlineAll expressions) = Expression.nestedAll expressions
  | [] => rfl
  | expression :: rest => by
      simp [Expression.outlineAll, Expression.nestedAll, expression.nested_outline,
        Expression.nestedAll_outlineAll rest]

end

mutual

/-- A statement and its outline have the same listing. -/
theorem Statement.nested_outline :
    ∀ statement : Statement, statement.outline.nested = statement.nested
  | .expression value => by simp [Statement.outline, Statement.nested, value.nested_outline]
  | .if_ condition success none => by
      simp [Statement.outline, Statement.outlineFailure, Statement.nested,
        condition.nested_outline, success.nested_outline]
  | .if_ condition success (some failure) => by
      simp [Statement.outline, Statement.outlineFailure, Statement.nested,
        condition.nested_outline, success.nested_outline, failure.nested_outline]
  | .while_ condition body => by
      simp [Statement.outline, Statement.nested, condition.nested_outline, body.nested_outline]
  | .func _ _ body => by
      simp [Statement.outline, Statement.nested, Statement.nestedAll_outlineAll body,
        Name.outline, Function.comp_def]
  | .let_ _ initial => by
      cases initial <;>
        simp [Statement.outline, Statement.nested, Expression.nested_outline, Name.outline]
  | .return_ _ value => by
      cases value <;> simp [Statement.outline, Statement.nested, Expression.nested_outline]
  | .block statements => by
      simp [Statement.outline, Statement.nested, Statement.nestedAll_outlineAll statements]

/-- Statements and their outlines have the same listings. -/
theorem Statement.nestedAll_outlineAll : ∀ statements : List Statement,
    Statement.nestedAll (Statement.outlineAll statements) = Statement.nestedAll statements
  | [] => rfl
  | statement :: rest => by
      simp [Statement.outlineAll, Statement.nestedAll, statement.nested_outline,
        Statement.nestedAll_outlineAll rest]

end

end Outlines

end Offside
