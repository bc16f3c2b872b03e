/-
This file changes the lines that trees and values carry. Lines say where an error is, and decide
nothing else.
-/

import Offside.Evaluate
import Mathlib.Data.List.Basic

namespace Offside

def Name.reline (line : Nat → Nat) (name : Name) : Name := { name with line := line name.line }

mutual

/-- The same expression with other lines. -/
def Expression.reline (line : Nat → Nat) : Expression → Expression
  | .constant value place => .constant value (line place)
  | .reference name => .reference (name.reline line)
  | .group inner => .group (inner.reline line)
  | .unary operator operand place => .unary operator (operand.reline line) (line place)
  | .binary operator left right place =>
    .binary operator (left.reline line) (right.reline line) (line place)
  | .logic operator left right place =>
    .logic operator (left.reline line) (right.reline line) (line place)
  | .assign name value => .assign (name.reline line) (value.reline line)
  | .call callee arguments place =>
    .call (callee.reline line) (Expression.relineAll line arguments) (line place)

def Expression.relineAll (line : Nat → Nat) : List Expression → List Expression
  | [] => []
  | expression :: rest => expression.reline line :: Expression.relineAll line rest

end

mutual

/-- The same statement with other lines. -/
def Statement.reline (line : Nat → Nat) : Statement → Statement
  | .expression value => .expression (value.reline line)
  | .if_ condition success failure =>
    .if_ (condition.reline line) (success.reline line) (Statement.relineFailure line failure)
  | .while_ condition body => .while_ (condition.reline line) (body.reline line)
  | .func name parameters body =>
    .func (name.reline line) (parameters.map (Name.reline line)) (Statement.relineAll line body)
  | .let_ name initial => .let_ (name.reline line) (initial.map (Expression.reline line))
  | .return_ place value => .return_ (line place) (value.map (Expression.reline line))
  | .block statements => .block (Statement.relineAll line statements)

def Statement.relineFailure (line : Nat → Nat) : Option Statement → Option Statement
  | none => none
  | some statement => some (statement.reline line)

def Statement.relineAll (line : Nat → Nat) : List Statement → List Statement
  | [] => []
  | statement :: rest => statement.reline line :: Statement.relineAll line rest

end

@[simp]
theorem Name.reline_id (name : Name) : name.reline id = name := rfl

@[simp]
theorem Name.map_reline_id (names : List Name) : names.map (Name.reline id) = names :=
  List.map_id names

theorem Name.reline_reline (first second : Nat → Nat) (name : Name) :
    (name.reline first).reline second = name.reline (second ∘ first) := rfl

mutual

/-- The same lines leave an expression as it is. -/
@[simp]
theorem Expression.reline_id : ∀ expression : Expression, expression.reline id = expression
  | .constant _ _ => rfl
  | .reference _ => rfl
  | .group inner => by rw [reline, reline_id inner]
  | .unary _ operand _ => by rw [reline, reline_id operand, id]
  | .binary _ left right _ => by rw [reline, reline_id left, reline_id right, id]
  | .logic _ left right _ => by rw [reline, reline_id left, reline_id right, id]
  | .assign _ value => by rw [reline, reline_id value, Name.reline_id]
  | .call callee arguments _ => by rw [reline, reline_id callee, relineAll_id arguments, id]

@[simp]
theorem Expression.relineAll_id : ∀ list : List Expression, Expression.relineAll id list = list
  | [] => rfl
  | expression :: rest => by rw [relineAll, reline_id expression, relineAll_id rest]

end

@[simp]
theorem Expression.map_reline_id (value : Option Expression) :
    value.map (Expression.reline id) = value := by
  cases value <;> simp

mutual

/-- The same lines leave a statement as it is. -/
@[simp]
theorem Statement.reline_id : ∀ statement : Statement, statement.reline id = statement
  | .expression _ => by simp [reline]
  | .if_ _ success failure => by simp [reline, reline_id success, relineFailure_id failure]
  | .while_ _ body => by simp [reline, reline_id body]
  | .func _ _ body => by simp [reline, relineAll_id body]
  | .let_ _ _ => by simp [reline]
  | .return_ _ _ => by simp [reline]
  | .block statements => by rw [reline, relineAll_id statements]

theorem Statement.relineFailure_id :
    ∀ failure : Option Statement, Statement.relineFailure id failure = failure
  | none => rfl
  | some statement => by rw [relineFailure, reline_id statement]

@[simp]
theorem Statement.relineAll_id : ∀ list : List Statement, Statement.relineAll id list = list
  | [] => rfl
  | statement :: rest => by rw [relineAll, reline_id statement, relineAll_id rest]

end

section Composition

variable (first second : Nat → Nat)

mutual

/-- Two changes of the lines of an expression are one. -/
theorem Expression.reline_reline : ∀ expression : Expression,
    (expression.reline first).reline second = expression.reline (second ∘ first)
  | .constant _ _ => rfl
  | .reference _ => rfl
  | .group inner => by simp [reline, reline_reline inner]
  | .unary _ operand _ => by simp [reline, reline_reline operand]
  | .binary _ left right _ => by simp [reline, reline_reline left, reline_reline right]
  | .logic _ left right _ => by simp [reline, reline_reline left, reline_reline right]
  | .assign _ value => by simp [reline, reline_reline value, Name.reline_reline]
  | .call callee arguments _ => by
      simp [reline, reline_reline callee, relineAll_relineAll arguments]

theorem Expression.relineAll_relineAll : ∀ list : List Expression,
    Expression.relineAll second (Expression.relineAll first list) =
      Expression.relineAll (second ∘ first) list
  | [] => rfl
  | expression :: rest => by simp [relineAll, reline_reline expression, relineAll_relineAll rest]

end

theorem Expression.map_reline_reline (value : Option Expression) :
    (value.map (Expression.reline first)).map (Expression.reline second) =
      value.map (Expression.reline (second ∘ first)) := by
  cases value <;> simp [Expression.reline_reline]

mutual

/-- Two changes of the lines of a statement are one. -/
theorem Statement.reline_reline : ∀ statement : Statement,
    (statement.reline first).reline second = statement.reline (second ∘ first)
  | .expression _ => by simp [reline, Expression.reline_reline]
  | .if_ _ success failure => by
      simp [reline, Expression.reline_reline, reline_reline success,
        relineFailure_relineFailure failure]
  | .while_ _ body => by simp [reline, Expression.reline_reline, reline_reline body]
  | .func _ _ body => by
      simp [reline, Name.reline_reline, Function.comp_def, relineAll_relineAll body]
  | .let_ _ initial => by
      rw [reline, reline, Expression.map_reline_reline]
      rfl
  | .return_ _ value => by
      rw [reline, reline, Expression.map_reline_reline]
      rfl
  | .block statements => by simp [reline, relineAll_relineAll statements]

theorem Statement.relineFailure_relineFailure : ∀ failure : Option Statement,
    Statement.relineFailure second (Statement.relineFailure first failure) =
      Statement.relineFailure (second ∘ first) failure
  | none => rfl
  | some statement => by simp [relineFailure, reline_reline statement]

theorem Statement.relineAll_relineAll : ∀ list : List Statement,
    Statement.relineAll second (Statement.relineAll first list) =
      Statement.relineAll (second ∘ first) list
  | [] => rfl
  | statement :: rest => by simp [relineAll, reline_reline statement, relineAll_relineAll rest]

end

end Composition

def Closure.reline (line : Nat → Nat) (closure : Closure) : Closure where
  name := closure.name.reline line
  parameters := closure.parameters.map (Name.reline line)
  body := Statement.relineAll line closure.body
  scope := closure.scope

def Callable.reline (line : Nat → Nat) : Callable → Callable
  | native function => native function
  | closure function => closure (function.reline line)

def Value.reline (line : Nat → Nat) : Value → Value
  | callable function identity => callable (function.reline line) identity
  | value => value

def Fault.reline (line : Nat → Nat) : Fault → Fault
  | nonNumeric operand => nonNumeric (operand.reline line)
  | nonNumerics left right => nonNumerics (left.reline line) (right.reline line)
  | mismatchedOperands left right => mismatchedOperands (left.reline line) (right.reline line)
  | divisionByZero => divisionByZero
  | undefinedVariable name => undefinedVariable name
  | invalidCallee callee => invalidCallee (callee.reline line)
  | invalidArgumentCount expected actual => invalidArgumentCount expected actual

def RuntimeError.reline (line : Nat → Nat) (error : RuntimeError) : RuntimeError :=
  ⟨error.fault.reline line, line error.line⟩

def relineResult (line : Nat → Nat) : Except Fault Value → Except Fault Value
  | .ok value => .ok (value.reline line)
  | .error fault => .error (fault.reline line)

@[simp]
theorem Closure.reline_id (closure : Closure) : closure.reline id = closure := by
  simp [reline]

@[simp]
theorem Value.reline_id (value : Value) : value.reline id = value := by
  rcases value with _ | _ | _ | _ | ⟨function, _⟩ <;> try rfl
  cases function <;> simp [reline, Callable.reline]

@[simp]
theorem Fault.reline_id (fault : Fault) : fault.reline id = fault := by
  cases fault <;> simp [reline]

@[simp]
theorem RuntimeError.reline_id (error : RuntimeError) : error.reline id = error := by
  simp [reline]

section Operators

variable (line : Nat → Nat)

/-- A function takes as many arguments with other lines. -/
@[simp]
theorem Callable.arity_reline (function : Callable) :
    (function.reline line).arity = function.arity := by
  cases function <;> simp [reline, arity, Closure.reline]

/-- A value is displayed the same with other lines. -/
@[simp]
theorem Value.display_reline (value : Value) : (value.reline line).display = value.display := by
  rcases value with _ | _ | _ | _ | ⟨function, _⟩ <;> try rfl
  cases function <;> rfl

/-- A value counts as true or false whatever its lines are. -/
@[simp]
theorem Value.isTruthy_reline (value : Value) :
    (value.reline line).isTruthy = value.isTruthy := by
  cases value <;> rfl

/-- The message of a fault does not tell the lines inside its values. -/
@[simp]
theorem Fault.message_reline (fault : Fault) : (fault.reline line).message = fault.message := by
  cases fault <;> rfl

/-- Two operands with other lines give the same numbers, or the fault with other lines. -/
theorem Value.operands_reline (left right : Value) :
    (left.reline line).operands (right.reline line) =
      (left.operands right).mapError (Fault.reline line) := by
  cases left <;> cases right <;> rfl

/-- Arithmetic does not depend on the lines of its operands. -/
theorem Value.arithmetic_reline (operation : Float → Float → Float) (left right : Value) :
    arithmetic operation (left.reline line) (right.reline line) =
      relineResult line (arithmetic operation left right) := by
  unfold arithmetic
  rw [operands_reline]
  cases left.operands right <;> rfl

/-- A comparison does not depend on the lines of its operands. -/
theorem Value.comparison_reline (relation : Float → Float → Bool) (left right : Value) :
    comparison relation (left.reline line) (right.reline line) =
      relineResult line (comparison relation left right) := by
  unfold comparison
  rw [operands_reline]
  cases left.operands right <;> rfl

/-- A division does not depend on the lines of its operands. -/
theorem Value.divide_reline (left right : Value) :
    divide (left.reline line) (right.reline line) = relineResult line (divide left right) := by
  unfold divide
  rw [operands_reline]
  rcases left.operands right with _ | ⟨x, y⟩
  · rfl
  · by_cases zero : y == 0 <;> simp [Except.mapError, bind, Except.bind, zero] <;> rfl

/-- An addition does not depend on the lines of its operands. -/
theorem Value.add_reline (left right : Value) :
    add (left.reline line) (right.reline line) = relineResult line (add left right) := by
  cases left with
  | string value =>
      change Except.ok (Value.string (value ++ (right.reline line).display)) = _
      rw [display_reline]
      rfl
  | _ => exact arithmetic_reline line _ _ right

/-- Equality does not depend on the lines of the values. -/
theorem Value.isEqual_reline (left right : Value) :
    (left.reline line).isEqual (right.reline line) = left.isEqual right := by
  cases left <;> cases right <;> rfl

/-- A unary operator does not depend on the lines of its operand. -/
theorem UnaryOperator.apply_reline (operator : UnaryOperator) (operand : Value) :
    operator.apply (operand.reline line) = relineResult line (operator.apply operand) := by
  cases operator with
  | not =>
      change Except.ok (Value.bool !(operand.reline line).isTruthy) = _
      rw [Value.isTruthy_reline]
      rfl
  | negate => cases operand <;> rfl

/-- A binary operator does not depend on the lines of its operands. -/
theorem BinaryOperator.apply_reline (operator : BinaryOperator) (left right : Value) :
    operator.apply (left.reline line) (right.reline line) =
      relineResult line (operator.apply left right) := by
  cases operator with
  | divide => exact Value.divide_reline line left right
  | add => exact Value.add_reline line left right
  | multiply | subtract => exact Value.arithmetic_reline line _ left right
  | less | lessEqual | greater | greaterEqual =>
      unfold apply
      exact Value.comparison_reline line _ left right
  | equal | notEqual =>
      simp only [apply, Value.isEqual_reline]
      rfl

end Operators

end Offside
