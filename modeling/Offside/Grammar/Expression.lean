/-
This file parses expressions by levels of precedence.
-/

import Offside.Grammar.Cursor

namespace Offside

/-- A connective stands between two operands. -/
inductive Connective where
  | binary (operator : BinaryOperator)
  | logic (operator : LogicOperator)
deriving DecidableEq, Repr

def Connective.join : Connective → Expression → Expression → Nat → Expression
  | binary operator => .binary operator
  | logic operator => .logic operator

/-- The operands at one level are expressions of the next. -/
inductive Level where
  | disjunction | conjunction | equality | comparison | sum | product
deriving DecidableEq, Repr

namespace Level

/-- These are the levels, the loosest first. -/
def all : List Level := [disjunction, conjunction, equality, comparison, sum, product]

def connective? : Level → Kind → Option Connective
  | disjunction, .keyword .or => some (.logic .or)
  | conjunction, .keyword .and => some (.logic .and)
  | equality, .symbol .equalEqual => some (.binary .equal)
  | equality, .symbol .bangEqual => some (.binary .notEqual)
  | comparison, .symbol .less => some (.binary .less)
  | comparison, .symbol .lessEqual => some (.binary .lessEqual)
  | comparison, .symbol .greater => some (.binary .greater)
  | comparison, .symbol .greaterEqual => some (.binary .greaterEqual)
  | sum, .symbol .plus => some (.binary .add)
  | sum, .symbol .minus => some (.binary .subtract)
  | product, .symbol .star => some (.binary .multiply)
  | product, .symbol .slash => some (.binary .divide)
  | _, _ => none

end Level

def UnaryOperator.ofKind? : Kind → Option UnaryOperator
  | .symbol .bang => some not
  | .symbol .minus => some negate
  | _ => none

/-- A number or string token without a literal stands for `nil`. -/
def Constant.ofLiteral : Option Literal → Constant
  | some (.number value) => number value
  | some (.string value) => string value
  | none => nil

def Name.ofToken (token : Token) : Name := ⟨token.lexeme, token.line⟩

namespace Parser

/-
Each parser below takes the parser of a whole expression for what stands between parentheses and
after an equals sign, and a budget for its own loop. Every round of a loop and every use of the
inner parser comes after at least one token, so the number of tokens that are left is a budget that
cannot run out before the tokens do.
-/

def primary (inner : Parser Expression) : Parser Expression := do
  let place ← here
  match place.kind with
  | .keyword .true => skip; return .constant (.bool true) place.token.line
  | .keyword .false => skip; return .constant (.bool false) place.token.line
  | .keyword .nil => skip; return .constant .nil place.token.line
  | .number | .string => skip; return .constant (.ofLiteral place.token.literal) place.token.line
  | .name => skip; return .reference (.ofToken place.token)
  | .symbol .leftParen =>
    skip
    let expression ← inner
    let _ ← expect (.symbol .rightParen) .parenAfterExpression
    return .group expression
  | found => blame (.noExpression found)

/-- Arguments are separated by commas. -/
def arguments (inner : Parser Expression) : Nat → Parser (List Expression)
  | 0 => return [← inner]
  | budget + 1 => do
    let argument ← inner
    if ← accept (.symbol .comma) then
      return argument :: (← arguments inner budget)
    else return [argument]

/-- A callee may be called again and again. -/
def calls (inner : Parser Expression) : Nat → Expression → Parser Expression
  | 0, callee => return callee
  | budget + 1, callee => do
    let place ← here
    if place.kind = .symbol .leftParen then
      skip
      let values ← if (← peek) = .symbol .rightParen then pure [] else arguments inner budget
      let _ ← expect (.symbol .rightParen) .parenAfterArguments
      calls inner budget (.call callee values place.token.line)
    else return callee

def unary (inner : Parser Expression) : Nat → Parser Expression
  | 0 => do blame (.noExpression (← peek))
  | budget + 1 => do
    let place ← here
    match UnaryOperator.ofKind? place.kind with
    | some operator =>
      skip
      let operand ← unary inner budget
      return .unary operator operand place.token.line
    | none =>
      let callee ← primary inner
      calls inner (budget + 1) callee

/-- The connectives of one level group to the left. -/
def chain (level : Level) (operand : Parser Expression) : Nat → Expression → Parser Expression
  | 0, left => return left
  | budget + 1, left => do
    let place ← here
    match level.connective? place.kind with
    | some connective =>
      skip
      let right ← operand
      chain level operand budget (connective.join left right place.token.line)
    | none => return left

def tower (operand : Parser Expression) (budget : Nat) : List Level → Parser Expression
  | [] => operand
  | level :: tighter => do
    let left ← tower operand budget tighter
    chain level (tower operand budget tighter) budget left

/-- A step adds or subtracts one in place. -/
def step (place : Cursor) (target : Expression) (operator : BinaryOperator) (mistake : Mistake) :
    Parser Expression :=
  match target with
  | .reference name =>
    let one := .constant (.number 1) place.token.line
    return .assign name (.binary operator target one place.token.line)
  | _ => blameAt place mistake

/-- The right side of an assignment is read before its target is judged. -/
def assignment (inner : Parser Expression) (budget : Nat) : Parser Expression := do
  let target ← tower (unary inner budget) budget Level.all
  let place ← here
  match place.kind with
  | .symbol .equal =>
    skip
    let value ← inner
    match target with
    | .reference name => return .assign name value
    | _ => blameAt place .assignmentTarget
  | .symbol .plusPlus => skip; step place target .add .incrementTarget
  | .symbol .minusMinus => skip; step place target .subtract .decrementTarget
  | _ => return target

def expressionWithin : Nat → Parser Expression
  | 0 => do blame (.noExpression (← peek))
  | budget + 1 => assignment (expressionWithin budget) (budget + 1)

def expression : Parser Expression := fun cursor => expressionWithin cursor.rest.length cursor

end Parser

end Offside
