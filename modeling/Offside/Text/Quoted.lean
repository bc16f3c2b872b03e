/-
This file writes strings, characters and nested records on one line.
-/

import Offside.Text.Invisible

namespace Offside.Text

/-- The code point of an invisible character is written in base sixteen between braces. -/
def codePoint (c : Char) : List Char :=
  ['\\', 'u', '\x7b'] ++ Nat.toDigits 16 c.toNat ++ ['\x7d']

/-- This is one character as it stands between the given quotes. -/
def escape (quote c : Char) : List Char :=
  if c = quote ∨ c = '\\' then ['\\', c]
  else if c = '\n' then ['\\', 'n']
  else if c = '\r' then ['\\', 'r']
  else if c = '\t' then ['\\', 't']
  else if c = '\x00' then ['\\', '0']
  else if isInvisible c then codePoint c
  else [c]

def quoted (text : String) : String :=
  String.ofList ('"' :: text.toList.flatMap (escape '"') ++ ['"'])

def quotedChar (c : Char) : String :=
  String.ofList ('\'' :: escape '\'' c ++ ['\''])

/-- A list is written between square brackets. -/
def sequence (items : List String) : String :=
  "[" ++ ", ".intercalate items ++ "]"

/-- A node with unnamed parts is written with parentheses. -/
def node (name : String) (parts : List String) : String :=
  name ++ "(" ++ ", ".intercalate parts ++ ")"

/-- A record names each of its fields. -/
def record (name : String) (fields : List (String × String)) : String :=
  name ++ " \x7b " ++ ", ".intercalate (fields.map fun field => field.1 ++ ": " ++ field.2) ++ " \x7d"

/-- An absent part is written `None`. -/
def optional : Option String → String
  | none => "None"
  | some part => node "Some" [part]

end Offside.Text
