/-
This file lists tokens and lexical errors, one on a line, in a plain and in a detailed form.
-/

import Offside.Layout
import Offside.Report
import Offside.Text.Quoted

namespace Offside

def Symbol.title : Symbol → String
  | leftParen => "LEFT_PAREN"
  | rightParen => "RIGHT_PAREN"
  | leftBrace => "LEFT_BRACE"
  | rightBrace => "RIGHT_BRACE"
  | comma => "COMMA"
  | dot => "DOT"
  | semicolon => "SEMICOLON"
  | colon => "COLON"
  | star => "STAR"
  | slash => "SLASH"
  | plus => "PLUS"
  | plusPlus => "PLUS_PLUS"
  | minus => "MINUS"
  | minusMinus => "MINUS_MINUS"
  | bang => "BANG"
  | bangEqual => "BANG_EQUAL"
  | equal => "EQUAL"
  | equalEqual => "EQUAL_EQUAL"
  | less => "LESS"
  | lessEqual => "LESS_EQUAL"
  | greater => "GREATER"
  | greaterEqual => "GREATER_EQUAL"

def Symbol.detail : Symbol → String
  | leftParen => "LeftParenthesis"
  | rightParen => "RightParenthesis"
  | leftBrace => "LeftBrace"
  | rightBrace => "RightBrace"
  | comma => "Comma"
  | dot => "Dot"
  | semicolon => "Semicolon"
  | colon => "Colon"
  | star => "Star"
  | slash => "Slash"
  | plus => "Plus"
  | plusPlus => "PlusPlus"
  | minus => "Minus"
  | minusMinus => "MinusMinus"
  | bang => "Bang"
  | bangEqual => "BangEqual"
  | equal => "Equal"
  | equalEqual => "EqualEqual"
  | less => "LessThan"
  | lessEqual => "LessThanEqual"
  | greater => "GreaterThan"
  | greaterEqual => "GreaterThanEqual"

/-- This is the name of a kind in plain listings. -/
def Kind.title : Kind → String
  | symbol sign => sign.title
  | number => "NUMBER"
  | string => "STRING"
  | name => "IDENTIFIER"
  | keyword word => word.text.toUpper
  | indent => "INDENT"
  | dedent => "DEDENT"
  | newline => "NEWLINE"
  | eof => "EOF"

/-- Every kind has a title of its own. -/
def Kind.ofTitle? (title : String) : Option Kind := all.find? fun kind => kind.title == title

/-- This is the name of a kind in detailed listings. -/
def Kind.detail : Kind → String
  | symbol sign => sign.detail
  | number => "NumericLiteral"
  | string => "StringLiteral"
  | name => "Ident"
  | keyword word => "Keyword" ++ word.text.capitalize
  | indent => "Indent"
  | dedent => "Dedent"
  | newline => "Newline"
  | eof => "Eof"

/-- This is the text of a number in listings. -/
def listedNumber (value : Float) : String := String.ofList (Number.text Number.listed value)

def Literal.plain : Literal → String
  | number value => listedNumber value
  | string value => value

def Literal.detail : Literal → String
  | number value => Text.node "Number" [listedNumber value]
  | string value => Text.node "String" [Text.quoted value]

def Token.plain (token : Token) : String :=
  "\x7b" ++ ", ".intercalate
    [token.kind.title, token.lexeme, (token.literal.map Literal.plain).getD "nil",
      toString token.line] ++ "\x7d"

def Token.detail (token : Token) : String :=
  Text.record "Token" [("kind", token.kind.detail), ("lexeme", Text.quoted token.lexeme),
    ("literal", Text.optional (token.literal.map Literal.detail)), ("line", toString token.line)]

def Flaw.detail : Flaw → String
  | unrecognized c => Text.node "Unrecognized" [Text.quotedChar c]
  | unclosedString => "UnclosedString"
  | misalignedIndent => "MisalignedIndent"

def LexicalError.report (error : LexicalError) : Report := ⟨error.line, error.flaw.message⟩

def LexicalError.detail (error : LexicalError) : String :=
  Text.record "LexicalError" [("kind", error.flaw.detail), ("line", toString error.line)]

/-- A listing keeps its errors apart from its lines. -/
structure Listing where
  lines : List String
  errors : List String
deriving DecidableEq, Repr

def Listing.hadError (listing : Listing) : Bool := !listing.errors.isEmpty

inductive TokenFormat where
  | plain
  | detailed
deriving DecidableEq, Repr

def TokenFormat.token : TokenFormat → Token → String
  | plain => Token.plain
  | detailed => Token.detail

def TokenFormat.error : TokenFormat → LexicalError → String
  | plain => fun error => error.report.render
  | detailed => LexicalError.detail

/-- This listing shows the tokens of a text and its lexical errors. -/
def listTokens (format : TokenFormat) (source : String) : Listing :=
  let scanned := scan source
  ⟨scanned.tokens.map format.token, scanned.errors.map format.error⟩

end Offside
