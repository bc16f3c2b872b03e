/-
This file shows a report together with the line of the script that it blames.
-/

import Offside.Report
import Offside.Text.Blank

namespace Offside.Excerpt

/-- A line has a number from one on, and a text that ends in a line feed has no line after it. -/
def line? (source : List Char) : Nat → Option (List Char)
  | 0 => none
  | index + 1 => (Text.lines source)[index]?.map (Text.dropEndWhile Text.isLineEnd)

def byteLength (text : List Char) : Nat :=
  text.foldr (fun char length => char.utf8Size + length) 0

/-- These are the bytes of a line, from its first to the first one after it. The line end does not
belong to them. -/
def range? (source : List Char) : Nat → Option (Nat × Nat)
  | 0 => none
  | index + 1 =>
    (line? source (index + 1)).map fun content =>
      let start := byteLength ((Text.lines source).take index).flatten
      (start, start + byteLength content)

/-- These are the colours of an excerpt, as terminal codes. -/
inductive Colour where
  | heading | frame | margin | blamed

def Colour.code : Colour → String
  | heading => "31"
  | frame => "38;5;246"
  | margin => "38;5;240"
  | blamed => "91"

def paint (colour : Colour) (text : String) : String :=
  "\x1b[" ++ colour.code ++ "m" ++ text ++ "\x1b[0m"

/-- Every character is painted on its own. -/
def paintEach (colour : Colour) (text : List Char) : String :=
  String.join (text.map fun c => paint colour c.toString)

def spaces (count : Nat) : String := "".pushn ' ' count

def rule (count : Nat) : String := "".pushn '─' count

/-- A label hangs from the middle of the line. -/
def label (content : List Char) : String :=
  let middle := content.length / 2
  if content.isEmpty then paintEach .blamed ['│'] ++ " "
  else
    paintEach .blamed ((rule middle).toList ++ '┬' :: (rule (content.length - middle - 1)).toList) ++
      "  "

/-- These are the rows of the excerpt. The margin is as wide as the line number. -/
def rows (path : String) (report : Report) (content : List Char) : List String :=
  let number := toString report.line
  let width := number.length
  let middle := content.length / 2
  let margin := " " ++ paint .margin (spaces (width + 1) ++ "│") ++ " "
  [ paint .heading "Error:" ++ " " ++ report.message,
    spaces (width + 2) ++ paint .frame "╭" ++ paint .frame "─" ++ paint .frame "[" ++ " " ++ path ++
      ":" ++ number ++ ":1 " ++ paint .frame "]",
    spaces (width + 2) ++ paint .frame "│",
    " " ++ paint .frame (number ++ " │") ++ " " ++ paintEach .blamed content,
    margin ++ label content,
    margin ++ spaces middle ++
      paintEach .blamed ('╰' :: (rule (content.length - middle + 1)).toList) ++ " line " ++ number,
    paint .frame (rule (width + 2) ++ "╯") ]

/-- A report on no line of the script is only rendered. -/
def format (source path : String) (report : Report) : String :=
  match line? source.toList report.line with
  | none => report.render
  | some content => String.join ((rows path report content).map (· ++ "\n"))

end Offside.Excerpt
