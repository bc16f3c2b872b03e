/-
This file is the command line: it reads files and lines, and prints what the commands write.
-/

import Offside.CommandLine
import Std.Time.DateTime.Timestamp

namespace Offside.Main

/-- This is more fuel than any run uses that ends. -/
def ampleFuel : Nat := Nat.pow 2 62

/-- The clock starts at the present moment, in seconds since 1970. -/
def readClock : IO Clock := do
  let nanoseconds := (← Std.Time.Timestamp.now).toNanosecondsSinceUnixEpoch.toInt
  return Clock.ticking (Float.ofInt nanoseconds / 1000000000)

/-- Every statement writes its output before the next one starts, and sets the clock anew. -/
def runStatements (machine : Machine) (showReport : Report → String) (statements : List Statement) :
    IO (Nat × Machine) := do
  let mut state := machine
  let mut failures := 0
  for statement in statements do
    state := { state.flushed with clock := ← readClock }
    match state.interpret ampleFuel [statement] with
    | none => throw (IO.userError "the script did not end")
    | some (errors, after) =>
      IO.print after.output
      for error in errors do
        IO.eprint (showReport error.report)
        failures := failures + 1
      state := after
  return (failures, state)

/-- A rejected script only has its reports printed. -/
def runScript (machine : Machine) (showReport : Report → String) (source : String) :
    IO (Outcome × Machine) := do
  match readScript source with
  | .error rejection =>
    for report in rejection.reports do
      IO.eprint (showReport report)
    return (rejection.outcome, machine)
  | .ok statements =>
    let (failures, after) ← runStatements machine showReport statements
    return (.completed failures, after)

def printTranscript (transcript : Transcript) : IO UInt32 := do
  IO.print transcript.output
  IO.eprint transcript.errors
  return UInt32.ofNat transcript.exitCode

partial def conversation (machine : Machine) (entry : Entry.Open) : IO Unit := do
  IO.print (Entry.prompt entry)
  (← IO.getStdout).flush
  let line ← (← IO.getStdin).getLine
  let answer (text : String) (resume : Machine → IO Unit) : IO Unit :=
    match Entry.request text with
    | .leave => return
    | .nothing => resume machine
    | .script source => do
      let (_, after) ← runScript machine (fun report => report.render ++ "\n") source
      resume after
  if line.isEmpty then
    match entry with
    | none => return
    | some text => answer text fun _ => IO.print (Entry.prompt none)
  else match Entry.readLine entry line with
    | .more text => conversation machine (some text)
    | .complete text => answer text fun after => conversation after none

def perform : Command → IO UInt32
  | .converse => do
    IO.eprint Conversation.greeting
    conversation (Machine.start (← readClock) true) none
    return 0
  | .run path verbose pretty => do
    let source ← IO.FS.readFile path
    if verbose then
      let _ ← printTranscript (verboseTranscript path source)
    let machine := Machine.start (← readClock) false
    let (outcome, _) ← runScript machine (reportText path source pretty) source
    return UInt32.ofNat outcome.exitCode
  | .tokenize path format => do
    printTranscript (listTokens format (← IO.FS.readFile path)).transcript
  | .parse path format => do
    printTranscript (listProgram format (← IO.FS.readFile path)).transcript

end Offside.Main

def main (arguments : List String) : IO UInt32 := do
  match Offside.Command.ofArguments? arguments with
  | some command => Offside.Main.perform command
  | none =>
    IO.eprintln "usage: [repl | run PATH [--verbose] [--pretty] | tokenize PATH | parse PATH]"
    return 2
