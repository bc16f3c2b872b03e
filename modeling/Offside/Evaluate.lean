/-
This file runs expressions and statements on a machine.
-/

import Offside.Machine

namespace Offside

/-- A run stops early at an error of the script, or because it has no fuel left. -/
inductive Halt where
  | error (error : RuntimeError)
  | exhausted

/-- A run that stops early leaves the machine as it is at that point. -/
abbrev Run := EStateM Halt Machine

/-- A statement runs to its end with a value, or it returns from the call around it. -/
inductive Signal where
  | ran (value : Value)
  | returned (value : Value)

def Signal.value : Signal → Value
  | ran value | returned value => value

namespace Run

def exhausted {α : Type} : Run α := throw .exhausted

def fail {α : Type} (line : Nat) (fault : Fault) : Run α := throw (.error ⟨fault, line⟩)

/-- The fault of an operation is blamed on a line. -/
def ofExcept {α : Type} (line : Nat) : Except Fault α → Run α
  | .ok value => pure value
  | .error fault => fail line fault

def get (scope : Nat) (name : Name) : Run Value := do
  ofExcept name.line ((← EStateM.get).store.get scope name.text)

def declare (scope : Nat) (name : String) (value : Value) : Run Unit :=
  modify fun machine => { machine with store := machine.store.declare scope name value }

/-- The nearest binding of the name gets a new value. -/
def assign (scope : Nat) (name : Name) (value : Value) : Run Unit := do
  match (← EStateM.get).store.resolve? name.text scope with
  | some found => declare found name.text value
  | none => fail name.line (.undefinedVariable name.text)

def newScope (parent : Nat) : Run Nat := fun machine =>
  let (scope, store) := machine.store.newScope parent
  .ok scope { machine with store }

def newFunction (function : Callable) : Run Value := fun machine =>
  let (value, store) := machine.store.newFunction function
  .ok value { machine with store }

def callNative (line : Nat) (native : Native) (arguments : List Value) : Run Value := fun machine =>
  let (result, after) := machine.callNative native arguments
  ofExcept line result after

/-- The value of an expression statement is shown if the machine echoes. -/
def echo (value : Value) : Run Unit :=
  modify fun machine =>
    if machine.echoes then machine.write (.echoed (value.display ++ "\n")) else machine

/-- Parameters are bound from left to right. -/
def bindParameters (scope : Nat) : List Name → List Value → Run Unit
  | name :: names, value :: values => do
    declare scope name.text value
    bindParameters scope names values
  | _, _ => return ()

end Run

/-- The left side alone decides, so the right side is not evaluated. -/
def LogicOperator.decides : LogicOperator → Bool → Bool
  | and, left => !left
  | or, left => left

open Run in
mutual

/-- Operands and arguments are evaluated from left to right, after the callee. -/
def evaluate : Nat → Nat → Expression → Run Value
  | 0, _, _ => exhausted
  | fuel + 1, scope, expression =>
    match expression with
    | .constant value _ => return value.value
    | .reference name => get scope name
    | .group inner => evaluate fuel scope inner
    | .unary operator operand line => do
      let value ← evaluate fuel scope operand
      ofExcept line (operator.apply value)
    | .binary operator left right line => do
      let first ← evaluate fuel scope left
      let second ← evaluate fuel scope right
      ofExcept line (operator.apply first second)
    | .logic operator left right _ => do
      let first ← evaluate fuel scope left
      if operator.decides first.isTruthy then return .bool first.isTruthy
      else
        let second ← evaluate fuel scope right
        return .bool second.isTruthy
    | .assign name value => do
      let result ← evaluate fuel scope value
      assign scope name result
      return result
    | .call callee arguments line => do
      match ← evaluate fuel scope callee with
      | .callable function _ =>
        let values ← evaluateAll fuel scope arguments
        if values.length = function.arity then
          match function with
          | .native native => callNative line native values
          | .closure closure => call fuel closure values
        else fail line (.invalidArgumentCount function.arity values.length)
      | value => fail line (.invalidCallee value)
termination_by structural fuel => fuel

def evaluateAll : Nat → Nat → List Expression → Run (List Value)
  | 0, _, _ => exhausted
  | _ + 1, _, [] => return []
  | fuel + 1, scope, expression :: rest => do
    let value ← evaluate fuel scope expression
    let values ← evaluateAll fuel scope rest
    return value :: values
termination_by structural fuel => fuel

/-- The body runs in a new scope inside the scope of the declaration, whoever calls. -/
def call : Nat → Closure → List Value → Run Value
  | 0, _, _ => exhausted
  | fuel + 1, closure, arguments => do
    let scope ← newScope closure.scope
    bindParameters scope closure.parameters arguments
    let signal ← executeAll fuel scope .nil closure.body
    return signal.value
termination_by structural fuel => fuel

def execute : Nat → Nat → Statement → Run Signal
  | 0, _, _ => exhausted
  | fuel + 1, scope, statement =>
    match statement with
    | .expression expression => do
      let value ← evaluate fuel scope expression
      echo value
      return .ran value
    | .if_ condition success failure => do
      let value ← evaluate fuel scope condition
      if value.isTruthy then execute fuel scope success
      else match failure with
        | some other => execute fuel scope other
        | none => return .ran .nil
    | .while_ condition body => loop fuel scope condition body
    | .func name parameters body => do
      let value ← newFunction (.closure ⟨name, parameters, body, scope⟩)
      declare scope name.text value
      return .ran .nil
    | .let_ name initial => do
      let value ← match initial with
        | some expression => evaluate fuel scope expression
        | none => pure .nil
      declare scope name.text value
      return .ran .nil
    | .return_ _ value => do
      let result ← match value with
        | some expression => evaluate fuel scope expression
        | none => pure .nil
      return .returned result
    | .block statements => do
      let inner ← newScope scope
      executeAll fuel inner .nil statements
termination_by structural fuel => fuel

/-- The value of a list of statements is that of the last one. A return ends the list. -/
def executeAll : Nat → Nat → Value → List Statement → Run Signal
  | 0, _, _, _ => exhausted
  | _ + 1, _, last, [] => return .ran last
  | fuel + 1, scope, _, statement :: rest => do
    match ← execute fuel scope statement with
    | .ran value => executeAll fuel scope value rest
    | .returned value => return .returned value
termination_by structural fuel => fuel

def loop : Nat → Nat → Expression → Statement → Run Signal
  | 0, _, _, _ => exhausted
  | fuel + 1, scope, condition, body => do
    let value ← evaluate fuel scope condition
    if value.isTruthy then
      match ← execute fuel scope body with
      | .ran _ => loop fuel scope condition body
      | .returned result => return .returned result
    else return .ran .nil
termination_by structural fuel => fuel

end

end Offside
