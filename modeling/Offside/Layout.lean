/-
This file turns the pieces of a text into tokens and gives every line its indentation depth.
-/

import Offside.Piece

namespace Offside

/-- A flaw is what is wrong with a piece of text. -/
inductive Flaw where
  | unrecognized (c : Char)
  | unclosedString
  | misalignedIndent
deriving DecidableEq, Repr

/-- An error names the line on which its piece ends, counted like that of a token. -/
structure LexicalError where
  flaw : Flaw
  line : Nat
deriving DecidableEq, Repr

def Flaw.message : Flaw → String
  | unrecognized c => "Unexpected character '" ++ c.toString ++ "'."
  | unclosedString => "Unterminated string."
  | misalignedIndent => "Indents must be four spaces"

/-- A scan holds tokens and errors, each in the order of the text. -/
structure Scan where
  tokens : List Token
  errors : List LexicalError
deriving DecidableEq

namespace Scan

def empty : Scan := ⟨[], []⟩

def ofTokens (tokens : List Token) : Scan := ⟨tokens, []⟩

def ofError (flaw : Flaw) (line : Nat) : Scan := ⟨[], [⟨flaw, line⟩]⟩

def append (first second : Scan) : Scan :=
  ⟨first.tokens ++ second.tokens, first.errors ++ second.errors⟩

instance : Append Scan := ⟨append⟩

end Scan

/-- This is the number of spaces of one level of indentation. -/
def indentWidth : Nat := 4

/-- The margin is what the pieces so far leave for the layout of the next ones. Its line is counted
like that of a token, below `2 ^ 32`. -/
structure Margin where
  line : Nat
  depth : Nat
  last : Option Kind
deriving DecidableEq

namespace Margin

def start : Margin := ⟨1, 0, none⟩

/-- The margin notes the kind of the last token that was produced. -/
def after (margin : Margin) (tokens : List Token) : Margin :=
  { margin with last := (tokens.getLast?.map Token.kind).or margin.last }

/-- Only a line with something other than a comment on it has a depth. -/
def isSignificant : List Piece → Bool
  | [] => false
  | .blank c :: _ => c != '\r'
  | .lineBreak :: _ => false
  | .comment _ :: _ => false
  | _ :: _ => true

/-- These tokens lead from one depth to another. -/
def steps (source target line : Nat) : List Token :=
  List.replicate (target - source) (.layout .indent line) ++
    List.replicate (source - target) (.layout .dedent line)

/-- The spaces at the head of a line set its depth. A misaligned line keeps the depth before it. -/
def measure (margin : Margin) (ahead : List Piece) : Scan × Margin :=
  let isSpace := fun piece => piece == Piece.blank ' '
  let spaces := (ahead.takeWhile isSpace).length
  if !isSignificant (ahead.dropWhile isSpace) then (.empty, margin)
  else if spaces % indentWidth ≠ 0 then (.ofError .misalignedIndent margin.line, margin)
  else
    let depth := spaces / indentWidth
    let tokens := steps margin.depth depth margin.line
    (.ofTokens tokens, { margin.after tokens with depth })

/-- A line break ends a statement unless the line is empty or goes on. -/
def lineBreak (margin : Margin) : List Token :=
  match margin.last with
  | none => []
  | some kind =>
    if kind.endsLine || kind.continuesLine then [] else [.layout .newline margin.line]

/-- This is the number of the line after the given characters. -/
def lineAfter (margin : Margin) (text : List Char) : Nat := margin.line + text.count '\n'

/-- One piece gives its token or its error. After a line break the next line is measured. -/
def advance (margin : Margin) (piece : Piece) (ahead : List Piece) : Scan × Margin :=
  let next := { margin with line := margin.lineAfter piece.text }
  match piece with
  | .blank _ | .comment _ | .joint _ => (.empty, next)
  | .lineBreak =>
    let tokens := margin.lineBreak
    let measured := (next.after tokens).measure ahead
    (.ofTokens tokens ++ measured.1, measured.2)
  | .lexeme kind text => (.ofTokens [.ofText kind text margin.line], { next with last := some kind })
  | .stray c => (.ofError (.unrecognized c) margin.line, next)
  | .unclosed _ => (.ofError .unclosedString next.line, next)

/-- The end of the text ends the last statement and closes every open block. -/
def finish (margin : Margin) : List Token :=
  (match margin.last with
    | none => []
    | some kind => if kind.endsLine then [] else [.layout .newline margin.line]) ++
  List.replicate margin.depth (.layout .dedent margin.line) ++ [.layout .eof margin.line]

def arrange (margin : Margin) : List Piece → Scan
  | [] => .ofTokens margin.finish
  | piece :: ahead =>
    let next := margin.advance piece ahead
    next.1 ++ next.2.arrange ahead

end Margin

/-- The first line is measured like every other. -/
def scanPieces (pieces : List Piece) : Scan :=
  let measured := Margin.start.measure pieces
  measured.1 ++ measured.2.arrange pieces

/-- These are the tokens and lexical errors of a text. -/
def scan (source : String) : Scan := scanPieces (Piece.split source.toList)

end Offside
