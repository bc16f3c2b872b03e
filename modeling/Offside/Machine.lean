/-
This file holds the machine that runs scripts: its store, what it has written and its clock.
-/

import Offside.Store

namespace Offside

/-- The machine writes for a script that asks for it, and it may echo the value of an expression. -/
inductive Write where
  | printed (text : String)
  | echoed (text : String)
deriving DecidableEq, Repr

def Write.text : Write → String
  | printed text | echoed text => text

/-- A clock gives its readings in seconds, one after the other. -/
abbrev Clock := Nat → Float

/-- This clock starts at a moment and moves on by a microsecond at each reading. -/
def Clock.ticking (moment : Float) : Clock :=
  fun reading => moment + Float.ofNat reading / 1000000

/-- The machine counts the readings that it has taken from its clock. -/
structure Machine where
  store : Store
  writes : Array Write
  echoes : Bool
  clock : Clock
  readings : Nat

namespace Machine

/-- All scripts of a session run in this scope. -/
def globals : Nat := 0

def write (machine : Machine) (write : Write) : Machine :=
  { machine with writes := machine.writes.push write }

/-- A native is bound under its own name, as a function value that is new each time. -/
def register (machine : Machine) (native : Native) : Machine :=
  let (value, store) := machine.store.newFunction (.native native)
  { machine with store := store.declare globals native.name value }

/-- A new machine knows the initial natives only. -/
def start (clock : Clock) (echoes : Bool) : Machine :=
  Native.initial.foldl register ⟨Store.empty.newRoot.2, #[], echoes, clock, 0⟩

/-- This is everything that was written so far. -/
def output (machine : Machine) : String :=
  machine.writes.foldl (fun text write => text ++ write.text) ""

/-- The same machine with nothing written. -/
def flushed (machine : Machine) : Machine := { machine with writes := #[] }

/-- A native takes its arguments without counting them. -/
def callNative (machine : Machine) (native : Native) (arguments : List Value) :
    Except Fault Value × Machine :=
  match native with
  | .clock =>
    (.ok (.number (machine.clock machine.readings)),
      { machine with readings := machine.readings + 1 })
  | .print =>
    (.ok .nil, arguments.foldl (fun after value => after.write (.printed value.display)) machine)
  | .println =>
    (.ok .nil,
      arguments.foldl (fun after value => after.write (.printed (value.display ++ "\n"))) machine)
  | .double =>
    match arguments with
    | .number value :: _ => (.ok (.number (value * 2)), machine)
    | operand :: _ => (.error (.nonNumeric operand), machine)
    | [] => (.error (.invalidArgumentCount 1 0), machine)

end Machine

end Offside
