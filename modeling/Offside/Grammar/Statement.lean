/-
This file parses statements and finds the next statement after a mistake.
-/

import Offside.Grammar.Expression

namespace Offside

/-- Every statement but a block and an expression starts with such a keyword. -/
def Kind.startsStatement : Kind → Bool
  | .keyword .if_ | .keyword .while_ | .keyword .for_ => true
  | .keyword .func | .keyword .let_ | .keyword .return_ => true
  | _ => false

def Kind.isTerminator : Kind → Bool
  | .newline | .symbol .semicolon => true
  | _ => false

namespace Cursor

/-- The statements of a block end before its dedent. Those of the whole script end with it. -/
def closes (cursor : Cursor) (depth : Nat) : Bool :=
  cursor.kind == .eof || (depth != 0 && cursor.kind == .dedent)

/-- These tokens are left after a mistake. Outside every block that the skipped tokens open, the
search stops after a terminator and before a dedent or the start of a statement. A block is skipped
whole, and its end stops the search too. -/
def resume (nesting : Nat) (ended : Bool) : List Token → List Token
  | [] => []
  | token :: rest =>
    if nesting = 0 ∧ ended then token :: rest
    else match token.kind with
      | .indent => resume (nesting + 1) false rest
      | .dedent =>
        if nesting = 0 then token :: rest
        else if nesting = 1 then rest
        else resume (nesting - 1) false rest
      | kind =>
        if nesting = 0 ∧ kind.startsStatement then token :: rest
        else resume nesting kind.isTerminator rest

/-- The cursor skips at least one token, unless it stands at the end of its own block. -/
def recover (cursor : Cursor) (depth : Nat) : Cursor :=
  if cursor.closes depth then cursor
  else
    let nesting := if cursor.kind = .indent then 1 else 0
    let rest := resume nesting cursor.kind.isTerminator cursor.next.rest
    { cursor with rest, position := cursor.position + (cursor.rest.length - rest.length) }

end Cursor

/-- A loop with clauses is a block that holds its first clause and a plain loop. Its last clause
runs after the body, outside the scope of a body that is a block. -/
def Statement.forLoop (initializer : Option Statement) (condition : Expression)
    (increment : Option Expression) (body : Statement) : Statement :=
  let round := .block (body :: (increment.map Statement.expression).toList)
  .block (initializer.toList ++ [.while_ condition round])

namespace Parser

/-- A statement that fails is noted and skipped. -/
def attempt (item : Parser Statement) (depth : Nat) (cursor : Cursor) :
    Option Statement × Cursor :=
  match item cursor with
  | .ok statement after => (some statement, after)
  | .error error after => (none, (after.note error).recover depth)

/-- These are the statements of a block or of the whole script, without the failed ones. -/
def statements (item : Parser Statement) (depth : Nat) : Nat → Cursor → List Statement × Cursor
  | 0, cursor => ([], cursor.mark depth)
  | budget + 1, cursor =>
    let marked := cursor.mark depth
    if marked.closes depth then ([], marked)
    else
      let tried := attempt item depth marked
      let others := statements item depth budget tried.2
      (tried.1.toList ++ others.1, others.2)

/-- A block ends with its dedent or with the script. -/
def block (item : Parser Statement) (depth budget : Nat) : Parser (List Statement) := do
  let body ← fun cursor =>
    let parsed := statements item depth budget cursor
    .ok parsed.1 parsed.2
  let _ ← accept .dedent
  return body

def expressionStatement : Parser Statement := do
  let value ← expression
  terminator .endOfExpression
  return .expression value

def variableDeclaration : Parser Statement := do
  let name ← expect .name .variableName
  let initial ← if ← accept (.symbol .equal) then some <$> expression else pure none
  terminator .endOfVariable
  return .let_ (.ofToken name) initial

def returnStatement (line : Nat) : Parser Statement := do
  let value ← if (← peek).isTerminator then pure none else some <$> expression
  terminator .endOfReturn
  return .return_ line value

/-- An `else` belongs to the nearest `if`. -/
def ifStatement (inner : Parser Statement) : Parser Statement := do
  let condition ← expression
  let _ ← expect (.keyword .then_) .thenAfterIf
  let success ← inner
  if ← accept (.keyword .else_) then
    let _ ← expect (.keyword .then_) .thenAfterElse
    return .if_ condition success (some (← inner))
  else return .if_ condition success none

def whileStatement (inner : Parser Statement) : Parser Statement := do
  let condition ← expression
  let _ ← expect (.keyword .then_) .thenAfterWhile
  return .while_ condition (← inner)

/-- The first clause may be absent, a declaration or an expression. -/
def forInitializer : Parser (Option Statement) := do
  if ← accept (.symbol .semicolon) then return none
  else if ← accept (.keyword .let_) then some <$> variableDeclaration
  else some <$> expressionStatement

/-- An absent condition always holds. -/
def forCondition : Parser Expression := do
  let place ← here
  if place.kind = .symbol .semicolon then return .constant (.bool true) place.token.line
  else expression

def forIncrement : Parser (Option Expression) := do
  let found ← peek
  if found = .symbol .rightParen ∨ found = .keyword .then_ then return none
  else some <$> expression

def forStatement (inner : Parser Statement) : Parser Statement := do
  let parenthesized ← accept (.symbol .leftParen)
  let initializer ← forInitializer
  let condition ← forCondition
  let _ ← expect (.symbol .semicolon) .semicolonAfterCondition
  let increment ← forIncrement
  if parenthesized then
    let _ ← expect (.symbol .rightParen) .parenAfterClauses
  let _ ← expect (.keyword .then_) .thenAfterFor
  return .forLoop initializer condition increment (← inner)

/-- A parameter that is not a name is skipped and blamed. -/
def parameters : Nat → Parser (List Name)
  | 0 => do blame (.parameter (← peek))
  | budget + 1 => do
    let place ← here
    skip
    if place.kind = .name then
      if ← accept (.symbol .comma) then
        return .ofToken place.token :: (← parameters budget)
      else return [.ofToken place.token]
    else blameAt place (.parameter place.kind)

def function (body : Parser (List Statement)) (budget : Nat) : Parser Statement := do
  let name ← expect .name .functionName
  let _ ← expect (.symbol .colon) .colonAfterFunctionName
  let names ← if (← peek) = .symbol .equal then pure [] else parameters budget
  let _ ← expect (.symbol .equal) .equalAfterParameters
  let _ ← accept .newline
  let _ ← expect .indent .functionBlock
  return .func (.ofToken name) names (← body)

/-- The depth counts the blocks around the statement. Every statement inside another one comes
after at least one token, so the tokens that are left are budget enough. -/
def statementWithin : Nat → Nat → Parser Statement
  | 0, _ => do blame (.noExpression (← peek))
  | budget + 1, depth => do
    let inner := statementWithin budget depth
    let body := block (statementWithin budget (depth + 1)) (depth + 1) budget
    let place ← here
    match place.kind with
    | .keyword .if_ => skip; ifStatement inner
    | .keyword .while_ => skip; whileStatement inner
    | .keyword .for_ => skip; forStatement inner
    | .keyword .func => skip; function body budget
    | .keyword .let_ => skip; variableDeclaration
    | .keyword .return_ => skip; returnStatement place.token.line
    | .indent => skip; return .block (← body)
    | _ => expressionStatement

end Parser

/-- A program holds the statements that were read and every syntax error, in order. -/
structure Program where
  statements : List Statement
  errors : List SyntaxError

/-- These are the statements of all tokens, with the cursor after them. -/
def Parser.program (tokens : List Token) : List Statement × Cursor :=
  let cursor := Cursor.ofTokens tokens
  let budget := cursor.rest.length
  statements (statementWithin budget 0) 0 budget cursor

/-- Every list of tokens gives a program. -/
def Program.ofTokens (tokens : List Token) : Program :=
  let parsed := Parser.program tokens
  ⟨parsed.1, parsed.2.errors⟩

/-- This is the expression at the head of the tokens; what comes after it is not looked at. -/
def Expression.ofTokens (tokens : List Token) : Except SyntaxError Expression :=
  match Parser.expression (Cursor.ofTokens tokens) with
  | .ok expression _ => .ok expression
  | .error error _ => .error error

end Offside
