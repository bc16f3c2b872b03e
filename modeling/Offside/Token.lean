/-
This file holds the tokens of a script and the words and signs that they come from.
-/

import Offside.Number.Text

namespace Offside

/-- A symbol is an operator or a punctuation mark of one or two characters. -/
inductive Symbol where
  | leftParen | rightParen | leftBrace | rightBrace
  | comma | dot | semicolon | colon | star | slash
  | plus | plusPlus | minus | minusMinus
  | bang | bangEqual | equal | equalEqual
  | less | lessEqual | greater | greaterEqual
deriving DecidableEq, Repr

inductive Keyword where
  | and | class_ | else_ | false | for_ | func | if_ | nil
  | or | return_ | then_ | this | true | let_ | while_
deriving DecidableEq, Repr

/-- The last four kinds come from the layout of the text and have no characters. -/
inductive Kind where
  | symbol (symbol : Symbol)
  | number
  | string
  | name
  | keyword (keyword : Keyword)
  | indent
  | dedent
  | newline
  | eof
deriving DecidableEq, Repr

/-- A literal is the value that a token's characters determine. -/
inductive Literal where
  | number (value : Float)
  | string (value : String)
deriving DecidableEq

/-- A token names the line on which it stands, counted from one. Lines have no greatest number here;
the count is meant for texts with fewer than `2 ^ 32 - 1` line breaks, whose line numbers all fit
into 32 bits. -/
structure Token where
  kind : Kind
  lexeme : String
  literal : Option Literal
  line : Nat
deriving DecidableEq

namespace Symbol

def all : List Symbol :=
  [leftParen, rightParen, leftBrace, rightBrace, comma, dot, semicolon, colon, star, slash, plus,
    plusPlus, minus, minusMinus, bang, bangEqual, equal, equalEqual, less, lessEqual, greater,
    greaterEqual]

/-- This symbol is written with one character. -/
def single? : Char → Option Symbol
  | '(' => some leftParen
  | ')' => some rightParen
  | '\x7b' => some leftBrace
  | '\x7d' => some rightBrace
  | ',' => some comma
  | '.' => some dot
  | ';' => some semicolon
  | ':' => some colon
  | '*' => some star
  | '/' => some slash
  | '+' => some plus
  | '-' => some minus
  | '!' => some bang
  | '=' => some equal
  | '<' => some less
  | '>' => some greater
  | _ => none

/-- This symbol is written with two characters. -/
def pair? : Char → Char → Option Symbol
  | '+', '+' => some plusPlus
  | '-', '-' => some minusMinus
  | '!', '=' => some bangEqual
  | '=', '=' => some equalEqual
  | '<', '=' => some lessEqual
  | '>', '=' => some greaterEqual
  | _, _ => none

end Symbol

namespace Keyword

def text : Keyword → String
  | and => "and"
  | class_ => "class"
  | else_ => "else"
  | false => "false"
  | for_ => "for"
  | func => "func"
  | if_ => "if"
  | nil => "nil"
  | or => "or"
  | return_ => "return"
  | then_ => "then"
  | this => "this"
  | true => "true"
  | let_ => "let"
  | while_ => "while"

def all : List Keyword :=
  [and, class_, else_, false, for_, func, if_, nil, or, return_, then_, this, true, let_, while_]

def ofText? (word : String) : Option Keyword := all.find? fun keyword => keyword.text == word

/-- A line break after such a keyword cannot end a statement. -/
def continuesLine : Keyword → Bool
  | and | class_ | else_ | for_ | func | if_ | let_ | or | then_ | while_ => Bool.true
  | false | nil | return_ | this | true => Bool.false

end Keyword

namespace Kind

def all : List Kind :=
  Symbol.all.map symbol ++ [number, string, name] ++ Keyword.all.map keyword ++
    [indent, dedent, newline, eof]

def continuesLine : Kind → Bool
  | keyword word => word.continuesLine
  | _ => false

/-- Such a token already ends a logical line. -/
def endsLine : Kind → Bool
  | newline | indent | dedent => true
  | symbol .semicolon => true
  | _ => false

/-- A word is a keyword or a name. -/
def ofWord (text : String) : Kind :=
  match Keyword.ofText? text with
  | some word => keyword word
  | none => name

/-- These are the literals of numbers, strings and names; all else has none. -/
def literal? (kind : Kind) (text : List Char) : Option Literal :=
  match kind with
  | number => some (.number (Number.ofLiteral text))
  | string => some (.string (String.ofList (text.drop 1).dropLast))
  | name => some (.string (String.ofList text))
  | _ => none

end Kind

namespace Token

/-- This token stands for the given characters. -/
def ofText (kind : Kind) (text : List Char) (line : Nat) : Token :=
  ⟨kind, String.ofList text, kind.literal? text, line⟩

/-- This token stands for the layout of a line. -/
def layout (kind : Kind) (line : Nat) : Token := ⟨kind, "", none, line⟩

end Token

end Offside
