/-
This file holds the trees of a script.
-/

import Offside.Token

namespace Offside

/-- A name carries the line on which it is written. -/
structure Name where
  text : String
  line : Nat
deriving DecidableEq, Repr

inductive Constant where
  | nil
  | bool (value : Bool)
  | number (value : Float)
  | string (value : String)
deriving DecidableEq

inductive UnaryOperator where
  | not | negate
deriving DecidableEq, Repr

inductive BinaryOperator where
  | multiply | divide | add | subtract
  | less | lessEqual | greater | greaterEqual
  | equal | notEqual
deriving DecidableEq, Repr

/-- These operators may leave their right side alone. -/
inductive LogicOperator where
  | and | or
deriving DecidableEq, Repr

/-- The line of a node is that of its operator, or of its opening parenthesis. -/
inductive Expression where
  | constant (value : Constant) (line : Nat)
  | reference (name : Name)
  | group (inner : Expression)
  | unary (operator : UnaryOperator) (operand : Expression) (line : Nat)
  | binary (operator : BinaryOperator) (left right : Expression) (line : Nat)
  | logic (operator : LogicOperator) (left right : Expression) (line : Nat)
  | assign (name : Name) (value : Expression)
  | call (callee : Expression) (arguments : List Expression) (line : Nat)

inductive Statement where
  | expression (value : Expression)
  | if_ (condition : Expression) (success : Statement) (failure : Option Statement)
  | while_ (condition : Expression) (body : Statement)
  | func (name : Name) (parameters : List Name) (body : List Statement)
  | let_ (name : Name) (initial : Option Expression)
  | return_ (line : Nat) (value : Option Expression)
  | block (statements : List Statement)

instance : Inhabited Expression := ⟨.constant .nil 0⟩

instance : Inhabited Statement := ⟨.block []⟩

end Offside
