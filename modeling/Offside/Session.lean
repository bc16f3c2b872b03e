/-
This file runs whole scripts one after the other on the same machine.
-/

import Offside.Evaluate
import Offside.Grammar.Listing
import Offside.Value.Listing

namespace Offside

/-- A script is run only if it has no lexical and no syntax errors. -/
inductive Outcome where
  | lexicalErrors (count : Nat)
  | syntaxErrors (count : Nat)
  | completed (runtimeErrors : Nat)
deriving DecidableEq, Repr

namespace Outcome

def isSuccess (outcome : Outcome) : Bool := outcome == completed 0

def exitCode : Outcome → Nat
  | lexicalErrors _ | syntaxErrors _ => 65
  | completed 0 => 0
  | completed _ => 70

end Outcome

/-- A script that cannot run is rejected with reports from the first phase that fails. -/
structure Rejection where
  outcome : Outcome
  reports : List Report

/-- These are the statements of a script without lexical and syntax errors. -/
def readScript (source : String) : Except Rejection (List Statement) :=
  let scanned := scan source
  if !scanned.errors.isEmpty then
    .error ⟨.lexicalErrors scanned.errors.length, scanned.errors.map LexicalError.report⟩
  else
    let program := Program.ofTokens scanned.tokens
    if !program.errors.isEmpty then
      .error ⟨.syntaxErrors program.errors.length, program.errors.map SyntaxError.report⟩
    else .ok program.statements

/-- This is what one script leaves behind. -/
structure Completion where
  outcome : Outcome
  reports : List Report
  machine : Machine

namespace Machine

/-- Each statement runs in the global scope. An error ends its own statement only. The result is
`none` if some statement needs more fuel. -/
def interpret (fuel : Nat) (machine : Machine) :
    List Statement → Option (List RuntimeError × Machine)
  | [] => some ([], machine)
  | statement :: rest =>
    match execute fuel globals statement machine with
    | .ok _ after => after.interpret fuel rest
    | .error (.error error) after =>
      (after.interpret fuel rest).map fun (errors, final) => (error :: errors, final)
    | .error .exhausted _ => none

/-- An expression is evaluated in the global scope. -/
def evaluate (fuel : Nat) (machine : Machine) (expression : Expression) :
    Option (Except RuntimeError Value × Machine) :=
  match Offside.evaluate fuel globals expression machine with
  | .ok value after => some (.ok value, after)
  | .error (.error error) after => some (.error error, after)
  | .error .exhausted _ => none

/-- A rejected script leaves the machine as it is. -/
def run (fuel : Nat) (machine : Machine) (source : String) : Option Completion :=
  match readScript source with
  | .error rejection => some ⟨rejection.outcome, rejection.reports, machine⟩
  | .ok statements =>
    (machine.interpret fuel statements).map fun (errors, after) =>
      ⟨.completed errors.length, errors.map RuntimeError.report, after⟩

end Machine

end Offside
