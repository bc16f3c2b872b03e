/-
This file holds the values of running scripts, their operators and what can go wrong with them.
-/

import Offside.Tree

namespace Offside

/-- A native function is part of the machine. A host may give a machine natives of its own making;
these four are the ones that are known here. -/
inductive Native where
  | clock | print | println | double
deriving DecidableEq, Repr

namespace Native

def name : Native → String
  | clock => "clock"
  | print => "print"
  | println => "println"
  | double => "double"

def arity : Native → Nat
  | clock => 0
  | print | println | double => 1

def all : List Native := [clock, print, println, double]

def ofName? (name : String) : Option Native := all.find? fun native => native.name == name

/-- Every session starts with these. -/
def initial : List Native := [clock, print, println]

end Native

/-- A closure is a declared function together with the scope of its declaration. -/
structure Closure where
  name : Name
  parameters : List Name
  body : List Statement
  scope : Nat

inductive Callable where
  | native (function : Native)
  | closure (function : Closure)

namespace Callable

def name : Callable → String
  | native function => function.name
  | closure function => function.name.text

def arity : Callable → Nat
  | native function => function.arity
  | closure function => function.parameters.length

end Callable

/-- A function value has an identity, which no other function value shares. -/
inductive Value where
  | nil
  | bool (value : Bool)
  | number (value : Float)
  | string (value : String)
  | callable (function : Callable) (identity : Nat)

/-- A fault is why an operation on values fails. -/
inductive Fault where
  | nonNumeric (operand : Value)
  | nonNumerics (left right : Value)
  | mismatchedOperands (left right : Value)
  | divisionByZero
  | undefinedVariable (name : String)
  | invalidCallee (callee : Value)
  | invalidArgumentCount (expected actual : Nat)

/-- The line is that of a node of the tree, and so it is below `2 ^ 32` if all lines of the text
are. -/
structure RuntimeError where
  fault : Fault
  line : Nat

def Fault.message : Fault → String
  | nonNumeric _ => "Operand must be a number."
  | nonNumerics _ _ => "Operands must be a number."
  | mismatchedOperands _ _ => "Operand types must match."
  | divisionByZero => "Division by zero."
  | undefinedVariable name => "Undefined variable '" ++ name ++ "'."
  | invalidCallee _ => "Can only call functions."
  | invalidArgumentCount expected actual =>
    "Expected " ++ toString expected ++ " arguments but got " ++ toString actual ++ "."

def Constant.value : Constant → Value
  | nil => .nil
  | bool value => .bool value
  | number value => .number value
  | string value => .string value

namespace Value

/-- This is the text that a script prints for the value. -/
def display : Value → String
  | nil => "nil"
  | bool value => toString value
  | number value => String.ofList (Number.text Number.printed value)
  | string value => value
  | callable (.native function) _ => "<native fn " ++ function.name ++ ">"
  | callable (.closure function) _ => "<fn " ++ function.name.text ++ ">"

/-- Nil, false, both zeros and the empty string count as false. -/
def isTruthy : Value → Bool
  | nil => false
  | bool value => value
  | number value => value != 0
  | string value => !value.isEmpty
  | callable _ _ => true

/-- Values of two kinds are never equal, and functions are equal to themselves only. -/
def isEqual : Value → Value → Bool
  | nil, nil => true
  | bool left, bool right => left == right
  | number left, number right => left == right
  | string left, string right => left == right
  | callable _ left, callable _ right => left == right
  | _, _ => false

def negate : Value → Except Fault Value
  | number value => .ok (.number (-value))
  | operand => .error (.nonNumeric operand)

/-- Only two numbers can be operands. The fault says whether at least the kinds agree. -/
def operands : Value → Value → Except Fault (Float × Float)
  | number left, number right => .ok (left, right)
  | nil, nil => .error (.nonNumerics nil nil)
  | bool left, bool right => .error (.nonNumerics (bool left) (bool right))
  | string left, string right => .error (.nonNumerics (string left) (string right))
  | callable f left, callable g right => .error (.nonNumerics (callable f left) (callable g right))
  | left, right => .error (.mismatchedOperands left right)

def arithmetic (operation : Float → Float → Float) (left right : Value) : Except Fault Value := do
  let (x, y) ← left.operands right
  return .number (operation x y)

def comparison (relation : Float → Float → Bool) (left right : Value) : Except Fault Value := do
  let (x, y) ← left.operands right
  return .bool (relation x y)

/-- A string takes anything at its end. -/
def add (left right : Value) : Except Fault Value :=
  match left with
  | string value => .ok (.string (value ++ right.display))
  | _ => arithmetic (· + ·) left right

def divide (left right : Value) : Except Fault Value := do
  let (x, y) ← left.operands right
  if y == 0 then throw .divisionByZero
  return .number (x / y)

end Value

def UnaryOperator.apply : UnaryOperator → Value → Except Fault Value
  | not, operand => .ok (.bool !operand.isTruthy)
  | negate, operand => operand.negate

def BinaryOperator.apply : BinaryOperator → Value → Value → Except Fault Value
  | multiply => Value.arithmetic (· * ·)
  | divide => Value.divide
  | add => Value.add
  | subtract => Value.arithmetic (· - ·)
  | less => Value.comparison fun x y => x < y
  | lessEqual => Value.comparison fun x y => x ≤ y
  | greater => Value.comparison fun x y => x > y
  | greaterEqual => Value.comparison fun x y => x ≥ y
  | equal => fun left right => .ok (.bool (left.isEqual right))
  | notEqual => fun left right => .ok (.bool !left.isEqual right)

end Offside
