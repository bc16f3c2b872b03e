/-
This file cuts a text into pieces, each the longest that can start at its place.
-/

import Offside.Token

namespace Offside

/-- A piece is a lexeme, a gap between lexemes or a mistake. -/
inductive Piece where
  | blank (c : Char)
  | comment (body : List Char)
  | lineBreak
  | joint (carriage : Bool)
  | lexeme (kind : Kind) (text : List Char)
  | stray (c : Char)
  | unclosed (body : List Char)
deriving DecidableEq

namespace Piece

/-- These are the characters of the piece. -/
def text : Piece → List Char
  | blank c => [c]
  | comment body => '/' :: '/' :: body
  | lineBreak => ['\n']
  | joint carriage => '~' :: (if carriage then ['\r', '\n'] else ['\n'])
  | lexeme _ text => text
  | stray c => [c]
  | unclosed body => '"' :: body

def isGap (c : Char) : Bool := c == ' ' || c == '\t' || c == '\r'

def isNameStart (c : Char) : Bool := c.isAlpha || c == '_'

def isNamePart (c : Char) : Bool := c.isAlphanum || c == '_'

/-- A tilde right before a line break joins the two lines. -/
def cutTilde : List Char → Piece × List Char
  | '\n' :: rest => (joint false, rest)
  | '\r' :: '\n' :: rest => (joint true, rest)
  | rest => (stray '~', rest)

/-- A string runs to the next quote, over line breaks too. -/
def cutString (rest : List Char) : Piece × List Char :=
  let body := rest.takeWhile (· != '"')
  match rest.dropWhile (· != '"') with
  | [] => (unclosed body, [])
  | quote :: tail => (lexeme .string ('"' :: body ++ [quote]), tail)

/-- A point belongs to a number only if a digit follows it. -/
def cutNumber (c : Char) (rest : List Char) : Piece × List Char :=
  let whole := c :: rest.takeWhile Char.isDigit
  match rest.dropWhile Char.isDigit with
  | '.' :: digit :: tail =>
    if digit.isDigit then
      (lexeme .number (whole ++ '.' :: digit :: tail.takeWhile Char.isDigit),
        tail.dropWhile Char.isDigit)
    else (lexeme .number whole, '.' :: digit :: tail)
  | tail => (lexeme .number whole, tail)

def cutWord (c : Char) (rest : List Char) : Piece × List Char :=
  let word := c :: rest.takeWhile isNamePart
  (lexeme (.ofWord (String.ofList word)) word, rest.dropWhile isNamePart)

def cutSingle (c : Char) (rest : List Char) : Piece × List Char :=
  match Symbol.single? c with
  | some symbol => (lexeme (.symbol symbol) [c], rest)
  | none => (stray c, rest)

/-- A comment runs up to the line break, which stays. -/
def cutSymbol (c : Char) : List Char → Piece × List Char
  | [] => cutSingle c []
  | d :: rest =>
    if c = '/' ∧ d = '/' then (comment (rest.takeWhile (· != '\n')), rest.dropWhile (· != '\n'))
    else match Symbol.pair? c d with
      | some symbol => (lexeme (.symbol symbol) [c, d], rest)
      | none => cutSingle c (d :: rest)

/-- The first piece of a text that is not empty, and the text after it. -/
def cut (c : Char) (rest : List Char) : Piece × List Char :=
  if c = '\n' then (lineBreak, rest)
  else if isGap c then (blank c, rest)
  else if c = '~' then cutTilde rest
  else if c = '"' then cutString rest
  else if c.isDigit then cutNumber c rest
  else if isNameStart c then cutWord c rest
  else cutSymbol c rest

/-- A tilde and the text after it are the whole text. -/
theorem cutTilde_text (rest : List Char) :
    (cutTilde rest).1.text ++ (cutTilde rest).2 = '~' :: rest := by
  unfold cutTilde
  split <;> simp [text]

/-- A string and the text after it are the whole text. -/
theorem cutString_text (rest : List Char) :
    (cutString rest).1.text ++ (cutString rest).2 = '"' :: rest := by
  have whole := List.takeWhile_append_dropWhile (p := (· != '"')) (l := rest)
  unfold cutString
  split
  next stop => simpa [text, stop] using whole
  next quote tail stop => simpa [text, stop] using whole

/-- A number and the text after it are the whole text. -/
theorem cutNumber_text (c : Char) (rest : List Char) :
    (cutNumber c rest).1.text ++ (cutNumber c rest).2 = c :: rest := by
  have whole := List.takeWhile_append_dropWhile (p := Char.isDigit) (l := rest)
  unfold cutNumber
  split
  next digit tail stop =>
    have fraction := List.takeWhile_append_dropWhile (p := Char.isDigit) (l := tail)
    split <;> simp_all [text]
  next => simp [text]

/-- A word and the text after it are the whole text. -/
theorem cutWord_text (c : Char) (rest : List Char) :
    (cutWord c rest).1.text ++ (cutWord c rest).2 = c :: rest := by
  simp [cutWord, text]

/-- A single character and the text after it are the whole text. -/
theorem cutSingle_text (c : Char) (rest : List Char) :
    (cutSingle c rest).1.text ++ (cutSingle c rest).2 = c :: rest := by
  unfold cutSingle
  split <;> simp [text]

/-- A symbol and the text after it are the whole text. -/
theorem cutSymbol_text (c : Char) (rest : List Char) :
    (cutSymbol c rest).1.text ++ (cutSymbol c rest).2 = c :: rest := by
  unfold cutSymbol
  split
  · exact cutSingle_text c []
  · split
    next slashes => simp [text, slashes]
    next =>
      split
      · simp [text]
      · exact cutSingle_text c _

/-- The first piece and the text after it make up the whole text. -/
theorem cut_text (c : Char) (rest : List Char) :
    (cut c rest).1.text ++ (cut c rest).2 = c :: rest := by
  unfold cut
  split
  next same => simp [text, same]
  split
  · simp [text]
  split
  next same => rw [same]; exact cutTilde_text rest
  split
  next same => rw [same]; exact cutString_text rest
  split
  · exact cutNumber_text c rest
  split
  · exact cutWord_text c rest
  · exact cutSymbol_text c rest

/-- No piece is empty. -/
theorem cut_pos (c : Char) (rest : List Char) : 0 < (cut c rest).1.text.length := by
  unfold cut cutTilde cutString cutNumber cutWord cutSymbol cutSingle
  repeat' split
  all_goals simp [text]

/-- Every piece takes at least one character. -/
theorem cut_length (c : Char) (rest : List Char) : (cut c rest).2.length < (c :: rest).length := by
  have whole := congrArg List.length (cut_text c rest)
  have positive := cut_pos c rest
  rw [List.length_append] at whole
  omega

/-- These are all pieces of the text, in order. -/
def split : List Char → List Piece
  | [] => []
  | c :: rest =>
    let first := cut c rest
    first.1 :: split first.2
termination_by text => text.length
decreasing_by exact cut_length c rest

/-- Nothing of the text is lost. -/
theorem split_text (text : List Char) : (split text).flatMap Piece.text = text := by
  induction text using split.induct with
  | case1 => simp [split]
  | case2 c rest first inductionHypothesis =>
      rw [split, List.flatMap_cons, inductionHypothesis]
      exact cut_text c rest

end Piece

end Offside
