/-
This file writes values and faults in the detailed form.
-/

import Offside.Value
import Offside.Token.Listing

namespace Offside

def Native.detail : Native → String
  | clock => "NativeClock"
  | print => "NativePrint"
  | println => "NativePrintln"
  | double => "Double"

/-- The scope of a closure is left out, since it usually holds the closure itself. -/
def Callable.detail : Callable → String
  | native function => Text.node "Native" [function.detail]
  | closure function =>
    Text.node "Function" ["Function \x7b name: " ++ Text.quoted function.name.text ++ ", arity: " ++
      toString function.parameters.length ++ ", .. \x7d"]

def Value.detail : Value → String
  | nil => "Nil"
  | bool value => Text.node "Bool" [toString value]
  | number value => Text.node "Number" [listedNumber value]
  | string value => Text.node "String" [Text.quoted value]
  | callable function _ => Text.node "Callable" [function.detail]

namespace Fault

def title : Fault → String
  | nonNumeric _ => "NonNumeric"
  | nonNumerics _ _ => "NonNumerics"
  | mismatchedOperands _ _ => "MismatchedOperands"
  | divisionByZero => "DivisionByZero"
  | undefinedVariable _ => "UndefinedVariable"
  | invalidCallee _ => "InvalidCallee"
  | invalidArgumentCount _ _ => "InvalidArgumentCount"

def detail (fault : Fault) : String :=
  match fault with
  | nonNumeric operand => Text.node fault.title [operand.detail]
  | nonNumerics left right => Text.node fault.title [left.detail, right.detail]
  | mismatchedOperands left right => Text.node fault.title [left.detail, right.detail]
  | divisionByZero => fault.title
  | undefinedVariable name => Text.node fault.title [Text.quoted name]
  | invalidCallee callee => Text.node fault.title [callee.detail]
  | invalidArgumentCount expected actual =>
    Text.record fault.title [("expected", toString expected), ("actual", toString actual)]

end Fault

namespace RuntimeError

def report (error : RuntimeError) : Report := ⟨error.line, error.fault.message⟩

def text (error : RuntimeError) : String :=
  "[line " ++ toString error.line ++ "] " ++ error.fault.message

end RuntimeError

end Offside
