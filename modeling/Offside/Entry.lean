/-
This file gathers the lines of an interactive session into entries.
-/

import Offside.Text.Blank

namespace Offside

/-- A line that ends in an equals sign, in a tilde or in the word `then` is not a whole entry. -/
def needsContinuation (line : String) : Bool :=
  let text := line.toList
  let last := (Text.trimEnd text).getLast?
  last == some '=' || last == some '~' || Text.lastWord text == ['t', 'h', 'e', 'n']

namespace Entry

/-- An open entry waits for more lines. There is none before the first line of an entry. -/
abbrev Open := Option String

/-- The prompt shows whether an entry is open. -/
def prompt : Open → String
  | none => ">>> "
  | some _ => "... "

/-- A line leaves the entry open or completes it. -/
inductive Step where
  | more (entry : String)
  | complete (entry : String)
deriving DecidableEq, Repr

def stripLineEnd (line : String) : String :=
  String.ofList (Text.dropEndWhile Text.isLineEnd line.toList)

/-- A line keeps everything but the line ends after its last other character. -/
theorem stripLineEnd_eq_iff {line content : String} :
    stripLineEnd line = content ↔
      (∃ ends, line.toList = content.toList ++ ends ∧ ∀ c ∈ ends, Text.isLineEnd c = true) ∧
        ∀ c ∈ content.toList.getLast?, Text.isLineEnd c = false := by
  rw [← Text.dropEndWhile_eq_iff, stripLineEnd, ← String.toList_inj, String.toList_ofList]

def isBlankLine (line : String) : Bool := (Text.trim line.toList).isEmpty

/-- A blank line holds white space only, or nothing. -/
theorem isBlankLine_iff {line : String} :
    isBlankLine line = true ↔ ∀ c ∈ line.toList, Text.isBlank c = true := by
  rw [isBlankLine, List.isEmpty_iff, Text.trim_eq_nil_iff]

/-- An entry that its first line leaves open goes on to the next blank line. -/
def readLine (entry : Open) (line : String) : Step :=
  let content := stripLineEnd line
  match entry with
  | none =>
    if needsContinuation content then .more (content ++ "\n") else .complete (content ++ "\n")
  | some text =>
    if isBlankLine content then .complete text else .more (text ++ content ++ "\n")

/-- A reading is an entry, the prompts that its lines were read after and the lines after it. There
is no entry at the end of the input. -/
structure Reading where
  entry : Option String
  prompts : List String
  rest : List String
deriving DecidableEq, Repr

/-- The end of the input completes an open entry. -/
def readFrom (entry : Open) : List String → Reading
  | [] => ⟨entry, [prompt entry], []⟩
  | line :: rest =>
    match readLine entry line with
    | .complete text => ⟨some text, [prompt entry], rest⟩
    | .more text =>
      let later := readFrom (some text) rest
      { later with prompts := prompt entry :: later.prompts }

def read (lines : List String) : Reading := readFrom none lines

/-- An open entry takes at least one of the lines, if there are any. -/
theorem readFrom_length (entry : Open) (lines : List String) :
    (readFrom entry lines).rest.length ≤ lines.length - 1 := by
  induction lines generalizing entry with
  | nil => simp [readFrom]
  | cons line rest inductionHypothesis =>
      rw [readFrom]
      split
      · simp
      · next text _ =>
          have shorter := inductionHypothesis (some text)
          simp only [List.length_cons]
          omega

/-- An entry takes at least one line. -/
theorem read_length (lines : List String) (text : String) (found : (read lines).entry = some text) :
    (read lines).rest.length < lines.length := by
  cases lines with
  | nil => simp [read, readFrom] at found
  | cons line rest =>
      have shorter := readFrom_length none (line :: rest)
      rw [read]
      simp only [List.length_cons] at shorter ⊢
      omega

/-- These are all readings of the input. The last one finds no entry. -/
def readings (lines : List String) : List Reading :=
  match _found : (read lines).entry with
  | none => [read lines]
  | some _ => read lines :: readings (read lines).rest
termination_by lines.length
decreasing_by exact read_length lines _ _found

/-- A complete entry is a script, unless it is blank or asks to leave. -/
inductive Request where
  | leave
  | nothing
  | script (source : String)
deriving DecidableEq, Repr

def request (entry : String) : Request :=
  match String.ofList (Text.trim entry.toList) with
  | "exit" => .leave
  | "" => .nothing
  | _ => .script entry

end Entry

end Offside
