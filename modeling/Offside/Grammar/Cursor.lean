/-
This file holds the cursor that walks over tokens and the errors that it reports.
-/

import Offside.Tree

namespace Offside

/-- A requirement is what must stand at a place of a statement or an expression. -/
inductive Requirement where
  | thenAfterIf | thenAfterElse | thenAfterWhile | thenAfterFor
  | semicolonAfterCondition | parenAfterClauses
  | functionName | colonAfterFunctionName | equalAfterParameters | functionBlock
  | variableName | endOfVariable | endOfReturn | endOfExpression
  | parenAfterArguments | parenAfterExpression
deriving DecidableEq, Repr

/-- A mistake is what a syntax error blames on a token. -/
inductive Mistake where
  | noExpression (found : Kind)
  | missing (requirement : Requirement) (found : Kind)
  | assignmentTarget
  | incrementTarget
  | decrementTarget
  | parameter (found : Kind)
deriving DecidableEq, Repr

/-- The position counts the tokens before the blamed one. The line is that of the blamed token, and
so it is below `2 ^ 32` if all lines of the text are. -/
structure SyntaxError where
  mistake : Mistake
  line : Nat
  position : Nat
deriving DecidableEq, Repr

/-- A milestone is a place where a list of statements goes on or ends, with the number of blocks
around it. -/
structure Milestone where
  depth : Nat
  position : Nat
deriving DecidableEq, Repr

/-- A cursor stands before the tokens that are left. It never passes the end of the script, which
is the first token of that kind, or comes after the last token. Its trail holds the milestones that
it has come by, the latest one first. -/
structure Cursor where
  rest : List Token
  position : Nat
  endLine : Nat
  errors : List SyntaxError
  trail : List Milestone

namespace Cursor

def isEnd (token : Token) : Bool := token.kind == .eof

/-- A script that has no end token ends on the line of its last token. -/
def ofTokens (tokens : List Token) : Cursor :=
  let endLine := match tokens.find? isEnd with
    | some token => token.line
    | none => (tokens.getLast?.map Token.line).getD 1
  ⟨tokens.takeWhile fun token => !isEnd token, 0, endLine, [], []⟩

/-- This is the token under the cursor. -/
def token (cursor : Cursor) : Token :=
  match cursor.rest with
  | [] => .layout .eof cursor.endLine
  | token :: _ => token

def kind (cursor : Cursor) : Kind := cursor.token.kind

/-- The cursor moves over one token, if there is one. -/
def next (cursor : Cursor) : Cursor :=
  match cursor.rest with
  | [] => cursor
  | _ :: rest => { cursor with rest, position := cursor.position + 1 }

/-- The mistake is blamed on the token under the cursor. -/
def error (cursor : Cursor) (mistake : Mistake) : SyntaxError :=
  ⟨mistake, cursor.token.line, cursor.position⟩

/-- The cursor notes an error without moving. -/
def note (cursor : Cursor) (error : SyntaxError) : Cursor :=
  { cursor with errors := cursor.errors ++ [error] }

def mark (cursor : Cursor) (depth : Nat) : Cursor :=
  { cursor with trail := ⟨depth, cursor.position⟩ :: cursor.trail }

end Cursor

/-- A parser moves the cursor and gives a tree, or stops where it finds a mistake. -/
abbrev Parser := EStateM SyntaxError Cursor

namespace Parser

def peek : Parser Kind := fun cursor => .ok cursor.kind cursor

/-- This is the token under the cursor, which moves over it. -/
def take : Parser Token := fun cursor => .ok cursor.token cursor.next

def skip : Parser Unit := fun cursor => .ok () cursor.next

def here : Parser Cursor := fun cursor => .ok cursor cursor

/-- The mistake is blamed on the token that was under the cursor at an earlier place. -/
def blameAt {α : Type} (place : Cursor) (mistake : Mistake) : Parser α :=
  fun cursor => .error (place.error mistake) cursor

def blame {α : Type} (mistake : Mistake) : Parser α :=
  fun cursor => .error (cursor.error mistake) cursor

/-- The cursor moves over a token of the given kind only. -/
def accept (kind : Kind) : Parser Bool := do
  if (← peek) = kind then
    skip
    return true
  else return false

def expect (kind : Kind) (requirement : Requirement) : Parser Token := do
  let found ← peek
  if found = kind then take else blame (.missing requirement found)

/-- A line break or a semicolon ends a simple statement. -/
def terminator (requirement : Requirement) : Parser Unit := do
  let found ← peek
  if found = .newline ∨ found = .symbol .semicolon then skip
  else blame (.missing requirement found)

end Parser

end Offside
