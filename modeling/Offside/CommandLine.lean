/-
This file holds the commands of the program and what each of them writes.
-/

import Offside.Entry
import Offside.Excerpt
import Offside.Session

namespace Offside

inductive Command where
  | run (path : String) (verbose pretty : Bool)
  | converse
  | tokenize (path : String) (format : TokenFormat)
  | parse (path : String) (format : TreeFormat)
deriving DecidableEq, Repr

namespace Command

/-- The options of a script run may come in any order. -/
structure RunOptions where
  path : Option String
  verbose : Bool
  pretty : Bool

def runOptions (options : RunOptions) : List String → Option RunOptions
  | [] => some options
  | argument :: rest =>
    if argument == "--verbose" || argument == "-v" then
      runOptions { options with verbose := true } rest
    else if argument == "--pretty" then runOptions { options with pretty := true } rest
    else if argument.startsWith "-" || options.path.isSome then none
    else runOptions { options with path := some argument } rest

/-- The path and the format of a listing may come in any order. -/
def listingOptions (path format : Option String) : List String → Option (Option String × Option String)
  | [] => some (path, format)
  | "--format" :: value :: rest =>
    if format.isSome then none else listingOptions path (some value) rest
  | argument :: rest =>
    if argument.startsWith "--format=" then
      if format.isSome then none
      else listingOptions path (some (argument.drop "--format=".length).toString) rest
    else if argument.startsWith "-" || path.isSome then none
    else listingOptions (some argument) format rest

def tokenFormat? : String → Option TokenFormat
  | "basic" => some .plain
  | "debug" => some .detailed
  | _ => none

def treeFormat? : String → Option TreeFormat
  | "sexpr" => some .nested
  | "debug" => some .detailed
  | _ => none

/-- Without arguments a conversation starts. -/
def ofArguments? : List String → Option Command
  | [] => some converse
  | ["repl"] => some converse
  | "run" :: rest => do
    let options ← runOptions ⟨none, false, false⟩ rest
    return run (← options.path) options.verbose options.pretty
  | "tokenize" :: rest => do
    let (path, format) ← listingOptions none none rest
    return tokenize (← path) (← tokenFormat? (format.getD "basic"))
  | "parse" :: rest => do
    let (path, format) ← listingOptions none none rest
    return parse (← path) (← treeFormat? (format.getD "sexpr"))
  | _ => none

/-- This is the file that the command reads. A conversation reads the standard input. -/
def path? : Command → Option String
  | converse => none
  | run path _ _ | tokenize path _ | parse path _ => some path

end Command

/-- A transcript is what a command writes and the code with which it ends. -/
structure Transcript where
  output : String
  errors : String
  exitCode : Nat
deriving DecidableEq, Repr

namespace Transcript

def empty : Transcript := ⟨"", "", 0⟩

def append (first second : Transcript) : Transcript :=
  ⟨first.output ++ second.output, first.errors ++ second.errors, second.exitCode⟩

instance : Append Transcript := ⟨append⟩

end Transcript

def linesText (lines : List String) : String := String.join (lines.map (· ++ "\n"))

/-- A listing with errors ends with the code of a rejected script. -/
def Listing.transcript (listing : Listing) : Transcript :=
  ⟨linesText listing.lines, linesText listing.errors, if listing.hadError then 65 else 0⟩

/-- Before a verbose run the script, its tokens and its trees are shown. -/
def verboseTranscript (path source : String) : Transcript :=
  ⟨linesText ["Running " ++ path, source, "Tokens:"], "", 0⟩ ++
    (listTokens .plain source).transcript ++
    ⟨linesText ["Syntax tree:"], "", 0⟩ ++
    (listProgram .nested source).transcript ++
    ⟨linesText ["Output:"], "", 0⟩

/-- A report is one line, or an excerpt of the script. -/
def reportText (path source : String) (pretty : Bool) (report : Report) : String :=
  if pretty then Excerpt.format source path report else report.render ++ "\n"

/-- The result is `none` if the script needs more fuel. -/
def runTranscript (fuel : Nat) (clock : Clock) (path source : String)
    (verbose pretty : Bool) : Option Transcript :=
  let before := if verbose then verboseTranscript path source else .empty
  ((Machine.start clock false).run fuel source).map fun completion =>
    before ++ ⟨completion.machine.output,
      String.join (completion.reports.map (reportText path source pretty)),
      completion.outcome.exitCode⟩

namespace Conversation

/-- This is the text with which a conversation begins. -/
def greeting : String := "Entering REPL:\n"

/-- One entry writes its output and its reports. The machine is `none` if the entry asks to leave,
and the whole result is `none` if it needs more fuel. -/
def answer (fuel : Nat) (machine : Machine) (entry : String) :
    Option (Transcript × Option Machine) :=
  match Entry.request entry with
  | .leave => some (.empty, none)
  | .nothing => some (.empty, some machine)
  | .script source =>
    (machine.flushed.run fuel source).map fun completion =>
      (⟨completion.machine.output,
        linesText (completion.reports.map Report.render), 0⟩, some completion.machine)

/-- The prompts of a reading come before the answer to its entry. -/
def converse (fuel : Nat) (machine : Machine) : List Entry.Reading → Option Transcript
  | [] => some .empty
  | reading :: rest => do
    let prompted : Transcript := ⟨String.join reading.prompts, "", 0⟩
    match reading.entry with
    | none => return prompted
    | some text =>
      match ← answer fuel machine text with
      | (answered, none) => return prompted ++ answered
      | (answered, some after) => return prompted ++ answered ++ (← converse fuel after rest)

/-- The input is cut after each line feed. -/
def transcript (fuel : Nat) (clock : Clock) (input : String) : Option Transcript := do
  let lines := (Text.lines input.toList).map String.ofList
  return ⟨"", greeting, 0⟩ ++
    (← converse fuel (Machine.start clock true) (Entry.readings lines))

end Conversation

/-- This is what a command writes, given the text of its file or of the standard input. -/
def Command.transcript (fuel : Nat) (clock : Clock) (text : String) :
    Command → Option Transcript
  | run path verbose pretty => runTranscript fuel clock path text verbose pretty
  | converse => Conversation.transcript fuel clock text
  | tokenize _ format => some (listTokens format text).transcript
  | parse _ format => some (listProgram format text).transcript

end Offside
