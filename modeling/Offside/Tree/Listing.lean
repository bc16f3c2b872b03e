/-
This file lists trees on one line each, as nested lists and in a detailed form.
-/

import Offside.Tree
import Offside.Token.Listing

namespace Offside

def UnaryOperator.sign : UnaryOperator → String
  | not => "!"
  | negate => "-"

def UnaryOperator.detail : UnaryOperator → String
  | not => "Bang"
  | negate => "Minus"

def BinaryOperator.sign : BinaryOperator → String
  | multiply => "*"
  | divide => "/"
  | add => "+"
  | subtract => "-"
  | less => "<"
  | lessEqual => "<="
  | greater => ">"
  | greaterEqual => ">="
  | equal => "=="
  | notEqual => "!="

def BinaryOperator.detail : BinaryOperator → String
  | multiply => "Multiply"
  | divide => "Divide"
  | add => "Add"
  | subtract => "Subtract"
  | less => "LessThan"
  | lessEqual => "LessThanEqual"
  | greater => "GreaterThan"
  | greaterEqual => "GreaterThanEqual"
  | equal => "EqualEqual"
  | notEqual => "BangEqual"

def LogicOperator.sign : LogicOperator → String
  | and => "and"
  | or => "or"

def LogicOperator.detail : LogicOperator → String
  | and => "And"
  | or => "Or"

def Constant.nested : Constant → String
  | nil => "nil"
  | bool value => toString value
  | number value => listedNumber value
  | string value => "\"" ++ value ++ "\""

def Constant.detail : Constant → String
  | nil => "Nil"
  | bool value => Text.node "Bool" [toString value]
  | number value => Text.node "Number" [listedNumber value]
  | string value => Text.node "StringLiteral" [Text.quoted value]

/-- A nested list is its parts between parentheses. -/
def nestedList (parts : List String) : String := "(" ++ " ".intercalate parts ++ ")"

mutual

/-- An expression is written with its operator first. -/
def Expression.nested : Expression → String
  | .constant value _ => value.nested
  | .reference name => name.text
  | .group inner => nestedList ["group", inner.nested]
  | .unary operator operand _ => nestedList [operator.sign, operand.nested]
  | .binary operator left right _ => nestedList [operator.sign, left.nested, right.nested]
  | .logic operator left right _ => nestedList [operator.sign, left.nested, right.nested]
  | .assign name value => nestedList ["=", name.text, value.nested]
  | .call callee arguments _ => nestedList ("call" :: callee.nested :: Expression.nestedAll arguments)

def Expression.nestedAll : List Expression → List String
  | [] => []
  | expression :: rest => expression.nested :: Expression.nestedAll rest

end

mutual

def Statement.nested : Statement → String
  | .expression value => nestedList ["expr", value.nested]
  | .if_ condition success none => nestedList ["if", condition.nested, success.nested]
  | .if_ condition success (some failure) =>
    nestedList ["if", condition.nested, success.nested, failure.nested]
  | .while_ condition body => nestedList ["while", condition.nested, body.nested]
  | .func name parameters body =>
    nestedList ("func" :: name.text :: nestedList (parameters.map Name.text) :: Statement.nestedAll body)
  | .let_ name initial =>
    nestedList ("let" :: name.text :: (initial.map Expression.nested).toList)
  | .return_ _ value => nestedList ("return" :: (value.map Expression.nested).toList)
  | .block statements => nestedList ("block" :: Statement.nestedAll statements)

def Statement.nestedAll : List Statement → List String
  | [] => []
  | statement :: rest => statement.nested :: Statement.nestedAll rest

end

def Name.detail (name : Name) : String :=
  Text.record "Ident" [("name", Text.quoted name.text), ("line", toString name.line)]

mutual

/-- The detailed form shows every part of an expression with its line. -/
def Expression.detail : Expression → String
  | .constant value line =>
    Text.node "Atom"
      [Text.record "ExpressionAtom" [("kind", value.detail), ("line", toString line)]]
  | .reference name => Text.node "Variable" [name.detail]
  | .group inner => Text.record "Group" [("inner", inner.detail)]
  | .unary operator operand line =>
    Text.record "Unary"
      [("operator", operator.detail), ("rhs", operand.detail), ("line", toString line)]
  | .binary operator left right line =>
    Text.record "Binary" [("operator", operator.detail), ("lhs", left.detail),
      ("rhs", right.detail), ("line", toString line)]
  | .logic operator left right line =>
    Text.record "Logic" [("operator", operator.detail), ("lhs", left.detail),
      ("rhs", right.detail), ("line", toString line)]
  | .assign name value =>
    Text.record "Assignment" [("name", name.detail), ("value", value.detail)]
  | .call callee arguments line =>
    Text.record "Call" [("callee", callee.detail),
      ("arguments", Text.sequence (Expression.detailAll arguments)), ("line", toString line)]

def Expression.detailAll : List Expression → List String
  | [] => []
  | expression :: rest => expression.detail :: Expression.detailAll rest

end

mutual

def Statement.detail : Statement → String
  | .expression value => Text.node "Expression" [value.detail]
  | .if_ condition success failure =>
    Text.record "If" [("condition", condition.detail), ("success", success.detail),
      ("failure", Text.optional (Statement.detailFailure failure))]
  | .while_ condition body =>
    Text.record "While" [("condition", condition.detail), ("body", body.detail)]
  | .func name parameters body =>
    Text.node "Function" [Text.record "FunctionDecl" [("name", name.detail),
      ("parameters", Text.sequence (parameters.map Name.detail)),
      ("body", Text.sequence (Statement.detailAll body))]]
  | .let_ name initial =>
    Text.record "Variable" [("name", name.detail),
      ("initial", Text.optional (initial.map Expression.detail))]
  | .return_ line value =>
    Text.record "Return" [("line", toString line),
      ("value", Text.optional (value.map Expression.detail))]
  | .block statements => Text.node "Block" [Text.sequence (Statement.detailAll statements)]

def Statement.detailFailure : Option Statement → Option String
  | none => none
  | some statement => some statement.detail

def Statement.detailAll : List Statement → List String
  | [] => []
  | statement :: rest => statement.detail :: Statement.detailAll rest

end

end Offside
