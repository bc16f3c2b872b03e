/-
This file says what a run does, rule by rule and without fuel, and which events it goes through.
-/

import Offside.Proofs.Evaluation.Ends

namespace Offside

/-- What happens in a run: the script prints a text, an expression statement is evaluated to a
value, a scope is opened inside another one, and a function declaration makes a function value in a
store. -/
inductive Event where
  | printed (text : String)
  | evaluated (value : Value)
  | opened (scope parent : Nat)
  | declared (function : Value) (store : Store)

/-- These texts are printed by a native. -/
def Native.prints (native : Native) (arguments : List Value) : List Event :=
  match native with
  | print => arguments.map fun value => .printed value.display
  | println => arguments.map fun value => .printed (value.display ++ "\n")
  | clock | double => []

/-- A task is a part of a run, together with the type of what it gives. -/
inductive Task : Type → Type
  | evaluate (scope : Nat) (expression : Expression) : Task Value
  | evaluateOptional (scope : Nat) (expression : Option Expression) : Task Value
  | evaluateAll (scope : Nat) (expressions : List Expression) : Task (List Value)
  | call (closure : Closure) (arguments : List Value) : Task Value
  | execute (scope : Nat) (statement : Statement) : Task Signal
  | executeAll (scope : Nat) (last : Value) (statements : List Statement) : Task Signal
  | loop (scope : Nat) (condition : Expression) (body : Statement) : Task Signal

/-- The part of the evaluator that does the task. -/
def Task.run {α : Type} (fuel : Nat) : Task α → Run α
  | evaluate scope expression => Offside.evaluate fuel scope expression
  | evaluateOptional scope expression => Offside.evaluateOptional fuel scope expression
  | evaluateAll scope expressions => Offside.evaluateAll fuel scope expressions
  | call closure arguments => Offside.call fuel closure arguments
  | execute scope statement => Offside.execute fuel scope statement
  | executeAll scope last statements => Offside.executeAll fuel scope last statements
  | loop scope condition body => Offside.loop fuel scope condition body

/-- The fault of an operation is blamed on a line. -/
def blame {α : Type} (line : Nat) : Except Fault α → Except RuntimeError α :=
  Except.mapError fun fault => ⟨fault, line⟩

open Run in
/-- With this result and these events the task leads from one machine to another. -/
inductive Runs : {α : Type} → Task α → Machine → Except RuntimeError α → List Event → Machine → Prop
  | constant {scope value line machine} :
      Runs (.evaluate scope (.constant value line)) machine (.ok value.value) [] machine
  | reference {scope name machine} :
      Runs (.evaluate scope (.reference name)) machine
        (blame name.line (machine.store.get scope name.text)) [] machine
  | group {scope inner machine result events after} :
      Runs (.evaluate scope inner) machine result events after →
      Runs (.evaluate scope (.group inner)) machine result events after
  | unary {scope operator operand line machine result events after} :
      Runs (.evaluate scope operand) machine result events after →
      Runs (.evaluate scope (.unary operator operand line)) machine
        (result.bind fun value => blame line (operator.apply value)) events after
  | binaryFails {scope operator left right line machine error events after} :
      Runs (.evaluate scope left) machine (.error error) events after →
      Runs (.evaluate scope (.binary operator left right line)) machine (.error error) events after
  | binary {scope operator left right line machine first events middle result further after} :
      Runs (.evaluate scope left) machine (.ok first) events middle →
      Runs (.evaluate scope right) middle result further after →
      Runs (.evaluate scope (.binary operator left right line)) machine
        (result.bind fun second => blame line (operator.apply first second)) (events ++ further)
        after
  | logicFails {scope operator left right line machine error events after} :
      Runs (.evaluate scope left) machine (.error error) events after →
      Runs (.evaluate scope (.logic operator left right line)) machine (.error error) events after
  | logicDecided {scope operator left right line machine first events after} :
      Runs (.evaluate scope left) machine (.ok first) events after →
      operator.decides first.isTruthy = true →
      Runs (.evaluate scope (.logic operator left right line)) machine
        (.ok (.bool first.isTruthy)) events after
  | logic {scope operator left right line machine first events middle result further after} :
      Runs (.evaluate scope left) machine (.ok first) events middle →
      operator.decides first.isTruthy = false →
      Runs (.evaluate scope right) middle result further after →
      Runs (.evaluate scope (.logic operator left right line)) machine
        (result.map fun second => .bool second.isTruthy) (events ++ further) after
  | assignFails {scope name value machine error events after} :
      Runs (.evaluate scope value) machine (.error error) events after →
      Runs (.evaluate scope (.assign name value)) machine (.error error) events after
  | assign {scope name value machine found events middle result after} :
      Runs (.evaluate scope value) machine (.ok found) events middle →
      Run.assign scope name found middle = finished result after →
      Runs (.evaluate scope (.assign name value)) machine (result.map fun _ => found) events after
  | calleeFails {scope callee arguments line machine error events after} :
      Runs (.evaluate scope callee) machine (.error error) events after →
      Runs (.evaluate scope (.call callee arguments line)) machine (.error error) events after
  | invalidCallee {scope callee arguments line machine value events after} :
      Runs (.evaluate scope callee) machine (.ok value) events after →
      (∀ function identity, value ≠ .callable function identity) →
      Runs (.evaluate scope (.call callee arguments line)) machine
        (.error ⟨.invalidCallee value, line⟩) events after
  | argumentsFail {scope callee arguments line machine function identity events middle error further
        after} :
      Runs (.evaluate scope callee) machine (.ok (.callable function identity)) events middle →
      Runs (.evaluateAll scope arguments) middle (.error error) further after →
      Runs (.evaluate scope (.call callee arguments line)) machine (.error error)
        (events ++ further) after
  | argumentCount {scope callee arguments line machine function identity events middle values
        further after} :
      Runs (.evaluate scope callee) machine (.ok (.callable function identity)) events middle →
      Runs (.evaluateAll scope arguments) middle (.ok values) further after →
      values.length ≠ function.arity →
      Runs (.evaluate scope (.call callee arguments line)) machine
        (.error ⟨.invalidArgumentCount function.arity values.length, line⟩) (events ++ further)
        after
  | native {scope callee arguments line machine function identity events middle values further
        last} :
      Runs (.evaluate scope callee) machine (.ok (.callable (.native function) identity)) events
        middle →
      Runs (.evaluateAll scope arguments) middle (.ok values) further last →
      values.length = (Callable.native function).arity →
      Runs (.evaluate scope (.call callee arguments line)) machine
        (blame line (last.callNative function values).1)
        (events ++ further ++ function.prints values) (last.callNative function values).2
  | closure {scope callee arguments line machine closure identity events middle values further last
        result inner after} :
      Runs (.evaluate scope callee) machine (.ok (.callable (.closure closure) identity)) events
        middle →
      Runs (.evaluateAll scope arguments) middle (.ok values) further last →
      values.length = (Callable.closure closure).arity →
      Runs (.call closure values) last result inner after →
      Runs (.evaluate scope (.call callee arguments line)) machine result
        (events ++ further ++ inner) after
  | omitted {scope machine} : Runs (.evaluateOptional scope none) machine (.ok .nil) [] machine
  | given {scope expression machine result events after} :
      Runs (.evaluate scope expression) machine result events after →
      Runs (.evaluateOptional scope (some expression)) machine result events after
  | noExpressions {scope machine} : Runs (.evaluateAll scope []) machine (.ok []) [] machine
  | expressionsFail {scope expression rest machine error events after} :
      Runs (.evaluate scope expression) machine (.error error) events after →
      Runs (.evaluateAll scope (expression :: rest)) machine (.error error) events after
  | expressions {scope expression rest machine value events middle result further after} :
      Runs (.evaluate scope expression) machine (.ok value) events middle →
      Runs (.evaluateAll scope rest) middle result further after →
      Runs (.evaluateAll scope (expression :: rest)) machine (result.map (value :: ·))
        (events ++ further) after
  | call {closure arguments machine scope middle inside result events after} :
      Run.newScope closure.scope machine = .ok scope middle →
      Run.bindParameters scope closure.parameters arguments middle = .ok () inside →
      Runs (.executeAll scope .nil closure.body) inside result events after →
      Runs (.call closure arguments) machine (result.map Signal.value)
        (.opened scope closure.scope :: events) after
  | expressionFails {scope expression machine error events after} :
      Runs (.evaluate scope expression) machine (.error error) events after →
      Runs (.execute scope (.expression expression)) machine (.error error) events after
  | expression {scope expression machine value events middle after} :
      Runs (.evaluate scope expression) machine (.ok value) events middle →
      Run.echo value middle = .ok () after →
      Runs (.execute scope (.expression expression)) machine (.ok (.ran value))
        (events ++ [.evaluated value]) after
  | conditionFails {scope condition success failure machine error events after} :
      Runs (.evaluate scope condition) machine (.error error) events after →
      Runs (.execute scope (.if_ condition success failure)) machine (.error error) events after
  | success {scope condition success failure machine value events middle result further after} :
      Runs (.evaluate scope condition) machine (.ok value) events middle → value.isTruthy = true →
      Runs (.execute scope success) middle result further after →
      Runs (.execute scope (.if_ condition success failure)) machine result (events ++ further)
        after
  | failure {scope condition success failure machine value events middle result further after} :
      Runs (.evaluate scope condition) machine (.ok value) events middle → value.isTruthy = false →
      Runs (.execute scope failure) middle result further after →
      Runs (.execute scope (.if_ condition success (some failure))) machine result
        (events ++ further) after
  | noFailure {scope condition success machine value events after} :
      Runs (.evaluate scope condition) machine (.ok value) events after → value.isTruthy = false →
      Runs (.execute scope (.if_ condition success none)) machine (.ok (.ran .nil)) events after
  | while_ {scope condition body machine result events after} :
      Runs (.loop scope condition body) machine result events after →
      Runs (.execute scope (.while_ condition body)) machine result events after
  | func {scope name parameters body machine function middle after} :
      Run.newFunction (.closure ⟨name, parameters, body, scope⟩) machine = .ok function middle →
      Run.declare scope name.text function middle = .ok () after →
      Runs (.execute scope (.func name parameters body)) machine (.ok (.ran .nil))
        [.declared function machine.store] after
  | letFails {scope name initial machine error events after} :
      Runs (.evaluateOptional scope initial) machine (.error error) events after →
      Runs (.execute scope (.let_ name initial)) machine (.error error) events after
  | let_ {scope name initial machine value events middle after} :
      Runs (.evaluateOptional scope initial) machine (.ok value) events middle →
      Run.declare scope name.text value middle = .ok () after →
      Runs (.execute scope (.let_ name initial)) machine (.ok (.ran .nil)) events after
  | return_ {scope line value machine result events after} :
      Runs (.evaluateOptional scope value) machine result events after →
      Runs (.execute scope (.return_ line value)) machine (result.map .returned) events after
  | block {scope statements machine inner inside result events after} :
      Run.newScope scope machine = .ok inner inside →
      Runs (.executeAll inner .nil statements) inside result events after →
      Runs (.execute scope (.block statements)) machine result (.opened inner scope :: events) after
  | noStatements {scope last machine} :
      Runs (.executeAll scope last []) machine (.ok (.ran last)) [] machine
  | statementsFail {scope last statement rest machine error events after} :
      Runs (.execute scope statement) machine (.error error) events after →
      Runs (.executeAll scope last (statement :: rest)) machine (.error error) events after
  | statementsReturn {scope last statement rest machine value events after} :
      Runs (.execute scope statement) machine (.ok (.returned value)) events after →
      Runs (.executeAll scope last (statement :: rest)) machine (.ok (.returned value)) events after
  | statements {scope last statement rest machine value events middle result further after} :
      Runs (.execute scope statement) machine (.ok (.ran value)) events middle →
      Runs (.executeAll scope value rest) middle result further after →
      Runs (.executeAll scope last (statement :: rest)) machine result (events ++ further) after
  | loopConditionFails {scope condition body machine error events after} :
      Runs (.evaluate scope condition) machine (.error error) events after →
      Runs (.loop scope condition body) machine (.error error) events after
  | loopEnds {scope condition body machine value events after} :
      Runs (.evaluate scope condition) machine (.ok value) events after → value.isTruthy = false →
      Runs (.loop scope condition body) machine (.ok (.ran .nil)) events after
  | loopFails {scope condition body machine value events middle error further after} :
      Runs (.evaluate scope condition) machine (.ok value) events middle → value.isTruthy = true →
      Runs (.execute scope body) middle (.error error) further after →
      Runs (.loop scope condition body) machine (.error error) (events ++ further) after
  | loopReturns {scope condition body machine value events middle found further after} :
      Runs (.evaluate scope condition) machine (.ok value) events middle → value.isTruthy = true →
      Runs (.execute scope body) middle (.ok (.returned found)) further after →
      Runs (.loop scope condition body) machine (.ok (.returned found)) (events ++ further) after
  | loopGoesOn {scope condition body machine value events middle found further last result later
        after} :
      Runs (.evaluate scope condition) machine (.ok value) events middle → value.isTruthy = true →
      Runs (.execute scope body) middle (.ok (.ran found)) further last →
      Runs (.loop scope condition body) last result later after →
      Runs (.loop scope condition body) machine result (events ++ further ++ later) after

end Offside
