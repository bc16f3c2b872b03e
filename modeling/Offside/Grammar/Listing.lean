/-
This file lists programs and syntax errors.
-/

import Offside.Grammar.Statement
import Offside.Tree.Listing

namespace Offside

/-- This is the part that is required. -/
def Requirement.part : Requirement → String
  | thenAfterIf | thenAfterElse | thenAfterWhile | thenAfterFor => "'then'"
  | semicolonAfterCondition => "';'"
  | parenAfterClauses | parenAfterArguments | parenAfterExpression => "')'"
  | functionName => "function name"
  | colonAfterFunctionName => "':'"
  | equalAfterParameters => "'='"
  | functionBlock => "indented block"
  | variableName => "variable name"
  | endOfVariable | endOfReturn | endOfExpression => "';' or new line"

/-- This is the place where the part is required. -/
def Requirement.place : Requirement → String
  | thenAfterIf => "after if condition"
  | thenAfterElse => "after 'else'"
  | thenAfterWhile => "after while condition"
  | thenAfterFor | parenAfterClauses => "after for clauses"
  | semicolonAfterCondition => "after loop condition"
  | functionName => "after 'func'"
  | colonAfterFunctionName => "after function name"
  | equalAfterParameters => "after parameters"
  | functionBlock => "after function header"
  | variableName => "after 'let'"
  | endOfVariable => "after variable declaration"
  | endOfReturn => "after return value"
  | endOfExpression | parenAfterExpression => "after expression"
  | parenAfterArguments => "after arguments"

namespace Mistake

def message : Mistake → String
  | noExpression _ => "Expect expression."
  | missing requirement _ => "Expect " ++ requirement.part ++ " " ++ requirement.place ++ "."
  | assignmentTarget => "Invalid assignment target."
  | incrementTarget => "Invalid increment target."
  | decrementTarget => "Invalid decrement target."
  | parameter _ => "Parameters must be identifiers."

def title : Mistake → String
  | noExpression _ => "NonExpression"
  | missing _ _ => "UnexpectedToken"
  | assignmentTarget => "InvalidAssignmentTarget"
  | incrementTarget => "InvalidIncrementTarget"
  | decrementTarget => "InvalidDecrementTarget"
  | parameter _ => "InvalidParameter"

def detail (mistake : Mistake) : String :=
  match mistake with
  | noExpression found | parameter found => Text.node mistake.title [found.detail]
  | missing requirement found =>
    Text.record mistake.title [("expected", Text.quoted requirement.part),
      ("context", Text.quoted requirement.place), ("actual", found.detail)]
  | assignmentTarget | incrementTarget | decrementTarget => mistake.title

end Mistake

namespace SyntaxError

def report (error : SyntaxError) : Report := ⟨error.line, error.mistake.message⟩

def text (error : SyntaxError) : String :=
  "[line " ++ toString error.line ++ "] " ++ error.mistake.message

def detail (error : SyntaxError) : String :=
  Text.record "ParserError" [("kind", error.mistake.detail), ("line", toString error.line)]

end SyntaxError

inductive TreeFormat where
  | nested
  | detailed
deriving DecidableEq, Repr

namespace TreeFormat

def statement : TreeFormat → Statement → String
  | nested => Statement.nested
  | detailed => Statement.detail

def error : TreeFormat → SyntaxError → String
  | nested => fun error => error.report.render
  | detailed => SyntaxError.detail

end TreeFormat

/-- Lexical errors come first, and the tokens that were found are still parsed. -/
def listProgram (format : TreeFormat) (source : String) : Listing :=
  let scanned := scan source
  let program := Program.ofTokens scanned.tokens
  ⟨program.statements.map format.statement,
    scanned.errors.map (fun error => error.report.render) ++ program.errors.map format.error⟩

end Offside
