/-
This file says which texts are lexemes, what each of them stands for, and how a text is read: as
lexemes, each the longest that can start at its place, with gaps and mistakes between them.
-/

import Offside.Layout
import Offside.Proofs.Seam.Pieces

namespace Offside

/-- These characters are the symbol as it is written. -/
def Symbol.text : Symbol → List Char
  | leftParen => ['(']
  | rightParen => [')']
  | leftBrace => ['\x7b']
  | rightBrace => ['\x7d']
  | comma => [',']
  | dot => ['.']
  | semicolon => [';']
  | colon => [':']
  | star => ['*']
  | slash => ['/']
  | plus => ['+']
  | plusPlus => ['+', '+']
  | minus => ['-']
  | minusMinus => ['-', '-']
  | bang => ['!']
  | bangEqual => ['!', '=']
  | equal => ['=']
  | equalEqual => ['=', '=']
  | less => ['<']
  | lessEqual => ['<', '=']
  | greater => ['>']
  | greaterEqual => ['>', '=']

/-- The text is made of digits, and it has at least one. -/
structure Digits (text : List Char) : Prop where
  nonempty : text ≠ []
  all : ∀ c ∈ text, c.isDigit = true

/-- The text has the form of a keyword or a name. -/
def Word : List Char → Prop
  | [] => False
  | first :: rest => Piece.isNameStart first = true ∧ ∀ c ∈ rest, Piece.isNamePart c = true

/-- This is the number nearest to the value of the digits before and after a point. -/
def pointed (whole fraction : List Char) : Literal :=
  .number (Float.ofBits (UInt64.ofNat (Number.Decimal.toBits
    ⟨Number.digitsValue (whole ++ fraction), -(fraction.length : Int)⟩)))

/-- The text is a lexeme of this kind and has this literal. -/
inductive Denotes : List Char → Kind → Option Literal → Prop
  | symbol (symbol : Symbol) : Denotes symbol.text (.symbol symbol) none
  | whole {digits : List Char} : Digits digits → Denotes digits .number (some (pointed digits []))
  | fraction {whole digits : List Char} : Digits whole → Digits digits →
      Denotes (whole ++ '.' :: digits) .number (some (pointed whole digits))
  | string {body : List Char} : '"' ∉ body →
      Denotes ('"' :: body ++ ['"']) .string (some (.string (String.ofList body)))
  | keyword (keyword : Keyword) : Denotes keyword.text.toList (.keyword keyword) none
  | name {text : List Char} : Word text → (∀ keyword : Keyword, text ≠ keyword.text.toList) →
      Denotes text .name (some (.string (String.ofList text)))

def IsLexeme (text : List Char) : Prop := ∃ kind literal, Denotes text kind literal

/-- The lexeme stands at the start of the text, and no longer one does. -/
structure Longest (lexeme text : List Char) : Prop where
  starts : lexeme <+: text
  longest : ∀ other, IsLexeme other → other <+: text → other.length ≤ lexeme.length

/-- These characters mean nothing where the rest follows them. A comment runs up to the line
break, and a tilde hides the line break after it. -/
inductive Gap (rest : List Char) : List Char → Prop
  | blank {c : Char} : c ∈ [' ', '\t', '\r', '\n'] → Gap rest [c]
  | comment {body : List Char} : '\n' ∉ body → Piece.AtLineEnd rest → Gap rest ('/' :: '/' :: body)
  | joint : Gap rest ['~', '\n']
  | carriageJoint : Gap rest ['~', '\r', '\n']

/-- Neither a lexeme nor a gap starts here. -/
structure Astray (text : List Char) : Prop where
  noLexeme : ∀ lexeme, lexeme <+: text → ¬ IsLexeme lexeme
  noGap : ∀ gap rest, text = gap ++ rest → ¬ Gap rest gap

/-- The characters of a token and what they stand for. -/
structure Spelling where
  kind : Kind
  lexeme : String
  literal : Option Literal
deriving DecidableEq

/-- The text is read from its start to its end. Every character belongs to one gap, to the lexeme
of one spelling or to one flaw. -/
inductive Reading : List Char → List Spelling → List Flaw → Prop
  | done : Reading [] [] []
  | gap {text rest : List Char} {spellings : List Spelling} {flaws : List Flaw} :
      Gap rest text → Reading rest spellings flaws → Reading (text ++ rest) spellings flaws
  | lexeme {text rest : List Char} {kind : Kind} {literal : Option Literal}
      {spellings : List Spelling} {flaws : List Flaw} :
      Denotes text kind literal → Longest text (text ++ rest) → ¬ ['/', '/'] <+: text ++ rest →
      Reading rest spellings flaws →
      Reading (text ++ rest) (⟨kind, String.ofList text, literal⟩ :: spellings) flaws
  | stray {c : Char} {rest : List Char} {spellings : List Spelling} {flaws : List Flaw} :
      c ≠ '"' → Astray (c :: rest) → Reading rest spellings flaws →
      Reading (c :: rest) spellings (.unrecognized c :: flaws)
  | unclosed {body : List Char} : '"' ∉ body → Reading ('"' :: body) [] [.unclosedString]

end Offside
