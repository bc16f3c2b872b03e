/-
This file is about runs that end. More fuel does not change how a run ends, and what every primitive
keeps of the scopes is kept when the run ends.
-/

import Offside.Proofs.Evaluation.Lockstep
import Offside.Proofs.Scope.Store

namespace Offside

namespace Run

variable {α β : Type}

/-- A run that has enough fuel gives a value or an error of the script, and a machine. -/
def finished : Except RuntimeError α → Machine → EStateM.Result Halt Machine α
  | .ok value, after => .ok value after
  | .error error, after => .error (.error error) after

/-- With enough fuel the run ends like this. -/
def Ends (run : Nat → Run α) (machine : Machine) (result : Except RuntimeError α)
    (after : Machine) : Prop :=
  ∃ fuel, run fuel machine = finished result after

/-- A run ends with one result in one machine. -/
theorem finished_inj {result other : Except RuntimeError α} {after last : Machine}
    (same : finished result after = finished other last) : result = other ∧ after = last := by
  cases result <;> cases other <;> cases same <;> exact ⟨rfl, rfl⟩

/-- Both runs gave values that are alike, or both failed with the same error up to lines. -/
def EndsAlike (line : Nat → Nat) (alike : α → β → Prop) :
    Except RuntimeError α → Except RuntimeError β → Prop
  | .ok value, .ok other => alike value other
  | .error error, .error other => error.reline line = other.reline line
  | _, _ => False

/-- Results that end alike on the same lines are equal when their values are. -/
theorem EndsAlike.eq {alike : α → α → Prop} {result other : Except RuntimeError α}
    (equal : ∀ {first second}, alike first second → first = second)
    (results : EndsAlike id alike result other) : result = other := by
  cases result <;> cases other <;> first | exact results.elim | skip
  case ok.ok => rw [equal results]
  case error.error error found =>
      have same : error.reline id = found.reline id := results
      rw [RuntimeError.reline_id, RuntimeError.reline_id] at same
      rw [same]

/-- Where the left of two runs ends, the right one ends alike. -/
theorem Tracks.finished {line : Nat → Nat} {machines : Machine → Machine → Prop}
    {alike : α → β → Prop} {left : Run α} {right : Run β} {first second after : Machine}
    {result : Except RuntimeError α} (tracks : Tracks line machines alike left right)
    (related : machines first second) (ends : left first = finished result after) :
    ∃ other last, right second = Run.finished other last ∧ EndsAlike line alike result other ∧
      machines after last := by
  have both := tracks related
  rw [ends] at both
  cases result with
  | ok value =>
      obtain ⟨other, last, same, values, later⟩ := both
      exact ⟨.ok other, last, same, values, later⟩
  | error error =>
      obtain ⟨other, last, same, errors, later⟩ := both
      exact ⟨.error other, last, same, errors, later⟩

/-- To look a name up is to blame the line of the name for what the store says. -/
theorem get_apply (scope : Nat) (name : Name) (machine : Machine) :
    Run.get scope name machine =
      ofExcept name.line (machine.store.get scope name.text) machine := rfl

/-- An assignment to a name that no scope binds is a fault. -/
theorem assign_of_none {scope : Nat} {name : Name} {value : Value} {machine : Machine}
    (unbound : machine.store.resolve? name.text scope = none) :
    Run.assign scope name value machine =
      fail name.line (.undefinedVariable name.text) machine := by
  delta Run.assign EStateM.get
  simp only [bind, EStateM.bind, unbound]

/-- An assignment to a name declares it again in the scope that binds it. -/
theorem assign_of_some {scope found : Nat} {name : Name} {value : Value} {machine : Machine}
    (bound : machine.store.resolve? name.text scope = some found) :
    Run.assign scope name value machine = Run.declare found name.text value machine := by
  delta Run.assign EStateM.get
  simp only [bind, EStateM.bind, bound]

theorem callNative_apply (line : Nat) (native : Native) (arguments : List Value)
    (machine : Machine) :
    Run.callNative line native arguments machine =
      ofExcept line (machine.callNative native arguments).1
        (machine.callNative native arguments).2 := rfl

/-- A run that keeps its invariant is tracked by itself. -/
theorem Tracks.same {kept : Store → Prop} {alike : α → α → Prop} {run : Run α}
    (keeps : ∀ machine : Machine, kept machine.store → match run machine with
      | .ok value after => alike value value ∧ kept after.store
      | .error _ after => kept after.store) :
    Tracks id (fun first second => first = second ∧ kept first.store) alike run run := by
  rintro first _ ⟨rfl, before⟩
  have after := keeps first before
  rcases ran : run first with ⟨value, last⟩ | ⟨error | _, last⟩ <;> rw [ran] at after
  · exact ⟨value, last, rfl, after.1, rfl, after.2⟩
  · exact ⟨error, last, rfl, rfl, rfl, after⟩
  · trivial

end Run

/-- A value is like itself in every view. -/
theorem Value.Alike.refl {line : Nat → Nat} (value : Value) :
    Alike line (fun _ => True) value value := by
  refine ⟨rfl, ?_⟩
  rcases value with _ | _ | _ | _ | ⟨_ | _, _⟩ <;> trivial

/-- Values that are alike on the same lines are equal. -/
theorem Value.Alike.eq {sees : Nat → Prop} {left right : Value}
    (values : Alike id sees left right) : left = right := by
  simpa using values.same

/-- Signals that are alike on the same lines are equal. -/
theorem Signal.Alike.eq {sees : Nat → Prop} {left right : Signal}
    (signals : Alike id sees left right) : left = right := by
  cases left <;> cases right <;> first | exact signals.elim | rw [Value.Alike.eq signals]

/-- A native leaves the store alone. -/
theorem Machine.callNative_store (machine : Machine) (native : Native) (arguments : List Value) :
    (machine.callNative native arguments).2.store = machine.store := by
  have printed (text : Value → String) : (arguments.foldl
      (fun after value => after.write (.printed (text value))) machine).store = machine.store := by
    induction arguments generalizing machine with
    | nil => rfl
    | cons value rest inductionHypothesis => exact inductionHypothesis _
  unfold callNative
  split
  · rfl
  · exact printed _
  · exact printed _
  · split <;> rfl

/-- An echo leaves the store alone. -/
theorem store_of_echo {value : Value} {machine after : Machine}
    (echoed : Run.echo value machine = .ok () after) : after.store = machine.store := by
  cases echoed
  dsimp only
  split <;> rfl

open Run

/-- This is kept of the scopes by all that a run does to them. New names are declared only where
they are held. -/
structure ScopeInvariant where
  holds : Nat → String → Prop
  kept : Store → Prop
  declare : ∀ {store : Store} {scope : Nat} {name : String} (value : Value), kept store →
    holds scope name → kept (store.declare scope name value)
  rebind : ∀ {store : Store} {scope : Nat} {name : String} (value : Value), kept store →
    (store.local? scope name).isSome → kept (store.declare scope name value)
  newScope : ∀ {store : Store} (parent : Nat), kept store → kept (store.newScope parent).2
  inside : ∀ {store : Store}, kept store → ∀ name, holds store.scopes.size name
  newIdentity : ∀ {store : Store}, kept store → kept store.newIdentity.2

namespace ScopeInvariant

/-- The machine runs next to itself. -/
def lockstep (invariant : ScopeInvariant) : Lockstep where
  line := id
  sees _ := True
  holds := invariant.holds
  machines first second := first = second ∧ invariant.kept first.store
  get {scope left right} _ names := by
    obtain rfl : left = right := names
    apply Tracks.same
    intro machine kept
    rw [get_apply]
    cases machine.store.get scope left.text with
    | ok value => exact ⟨Value.Alike.refl value, kept⟩
    | error fault => exact kept
  assign {scope left right first second} _ names values := by
    obtain rfl : left = right := names
    obtain rfl := values.eq
    apply Tracks.same
    intro machine kept
    cases resolved : machine.store.resolve? left.text scope with
    | none =>
        rw [assign_of_none resolved]
        exact kept
    | some found =>
        rw [assign_of_some resolved]
        exact ⟨trivial, invariant.rebind first kept
          (machine.store.isSome_local?_of_resolve? resolved)⟩
  declare holds values := by
    obtain rfl := values.eq
    apply Tracks.same
    exact fun machine kept => ⟨trivial, invariant.declare _ kept holds⟩
  newScope _ := by
    apply Tracks.same
    exact fun machine kept => ⟨⟨rfl, trivial, invariant.inside kept⟩, invariant.newScope _ kept⟩
  newFunction {left right} functions _ := by
    obtain rfl : left = right := by simpa using functions
    apply Tracks.same
    exact fun machine kept => ⟨Value.Alike.refl _, invariant.newIdentity kept⟩
  callNative {first second native lefts rights} lines values := by
    obtain rfl : first = second := lines
    obtain rfl : lefts = rights := by
      rw [← List.forall₂_eq_eq_eq]
      exact values.imp fun _ _ alike => alike.eq
    apply Tracks.same
    intro machine kept
    rw [callNative_apply]
    have after := machine.callNative_store native lefts
    rw [← after] at kept
    cases (machine.callNative native lefts).1 with
    | ok value => exact ⟨Value.Alike.refl value, kept⟩
    | error fault => exact kept
  echo values := by
    obtain rfl := values.eq
    apply Tracks.same
    intro machine kept
    refine ⟨trivial, ?_⟩
    dsimp only
    split <;> exact kept

/-- A run keeps what its primitives keep. -/
theorem kept_of_finished {α : Type} {invariant : ScopeInvariant} {alike : α → α → Prop}
    {run : Run α} {machine after : Machine} {result : Except RuntimeError α}
    (tracks : invariant.lockstep.Tracks alike run run) (ends : run machine = finished result after)
    (kept : invariant.kept machine.store) : invariant.kept after.store := by
  obtain ⟨other, last, same, -, rfl, later⟩ := tracks.finished ⟨rfl, kept⟩ ends
  exact later

/-- Evaluation keeps every invariant of the scopes. -/
theorem kept_of_evaluate (invariant : ScopeInvariant) {machine after : Machine} {scope : Nat}
    {expression : Expression} {result : Except RuntimeError Value}
    (ends : Ends (fun fuel => evaluate fuel scope expression) machine result after)
    (kept : invariant.kept machine.store) : invariant.kept after.store := by
  obtain ⟨fuel, ends⟩ := ends
  have tracks : invariant.lockstep.Tracks invariant.lockstep.Alike
      (evaluate fuel scope expression) (evaluate fuel scope expression) :=
    (Lockstep.follows fuel fuel (Nat.le_refl fuel)).evaluate trivial rfl
  exact kept_of_finished tracks ends kept

/-- A statement keeps every invariant that holds the names that it declares. -/
theorem kept_of_execute (invariant : ScopeInvariant) {machine after : Machine} {scope : Nat}
    {statement : Statement} {result : Except RuntimeError Signal}
    (ends : Ends (fun fuel => execute fuel scope statement) machine result after)
    (holds : ∀ name ∈ statement.declared, invariant.holds scope name)
    (kept : invariant.kept machine.store) : invariant.kept after.store := by
  obtain ⟨fuel, ends⟩ := ends
  have tracks : invariant.lockstep.Tracks (Signal.Alike id fun _ => True)
      (execute fuel scope statement) (execute fuel scope statement) :=
    (Lockstep.follows fuel fuel (Nat.le_refl fuel)).execute trivial holds rfl
  exact kept_of_finished tracks ends kept

/-- Nothing is asked of the scopes. -/
def free : ScopeInvariant where
  holds _ _ := True
  kept _ := True
  declare _ _ _ := trivial
  rebind _ _ _ := trivial
  newScope _ _ := trivial
  inside _ _ := trivial
  newIdentity _ := trivial

/-- Of two runs in lockstep on one machine, the right one ends as the left one does. -/
theorem finished_of_tracks {α : Type} {alike : α → α → Prop} {left right : Run α}
    {machine after : Machine} {result : Except RuntimeError α}
    (equal : ∀ {value other}, alike value other → value = other)
    (tracks : free.lockstep.Tracks alike left right) (ends : left machine = finished result after) :
    right machine = finished result after := by
  obtain ⟨other, last, same, results, rfl, -⟩ := tracks.finished ⟨rfl, trivial⟩ ends
  rw [same, EndsAlike.eq equal results]

end ScopeInvariant

namespace Run

/-- More fuel does not change how the run ends. -/
def Steady {α : Type} (run : Nat → Run α) : Prop :=
  ∀ ⦃fuel more : Nat⦄, fuel ≤ more → ∀ ⦃machine after : Machine⦄ ⦃result : Except RuntimeError α⦄,
    run fuel machine = finished result after → run more machine = finished result after

/-- A steady run ends in one way only. -/
theorem Steady.unique {α : Type} {run : Nat → Run α} (steady : Steady run)
    {machine after last : Machine} {result other : Except RuntimeError α}
    (ends : Ends run machine result after) (again : Ends run machine other last) :
    result = other ∧ after = last := by
  obtain ⟨fuel, ends⟩ := ends
  obtain ⟨more, again⟩ := again
  apply finished_inj
  rw [← steady (Nat.le_max_left fuel more) ends, ← steady (Nat.le_max_right fuel more) again]

/-- More fuel does not change how a call ends. -/
theorem steady_call (closure : Closure) (arguments : List Value) :
    Steady fun fuel => call fuel closure arguments := by
  intro fuel more enough machine after result ends
  have all : List.Forall₂ ScopeInvariant.free.lockstep.Alike arguments arguments := by
    rw [List.forall₂_same]
    exact fun value _ => Value.Alike.refl value
  exact ScopeInvariant.finished_of_tracks Value.Alike.eq
    ((Lockstep.follows fuel more enough).call trivial rfl all) ends

/-- More fuel does not change how a statement ends. -/
theorem steady_execute (scope : Nat) (statement : Statement) :
    Steady fun fuel => execute fuel scope statement := by
  intro fuel more enough machine after result ends
  exact ScopeInvariant.finished_of_tracks Signal.Alike.eq
    ((Lockstep.follows fuel more enough).execute trivial (fun _ _ => trivial) rfl) ends

end Run

end Offside
