/-
This file is about echoes. A machine that shows the values of expression statements does all else
like one that does not.
-/

import Offside.Proofs.Evaluation.Account

namespace Offside

open Run

/-- The machine writes this for an event. Only a machine that echoes shows a value. -/
def Event.writes (echoes : Bool) : Event → List Write
  | printed text => [.printed text]
  | evaluated value => if echoes then [.echoed (value.display ++ "\n")] else []
  | opened _ _ | declared _ _ => []

/-- The machine writes this for events, one after the other. -/
def written (echoes : Bool) (events : List Event) : Array Write :=
  (events.flatMap (Event.writes echoes)).toArray

def Write.isEchoed : Write → Bool
  | printed _ => false
  | echoed _ => true

@[simp]
theorem written_nil (echoes : Bool) : written echoes [] = #[] := rfl

/-- Events in a row are written in a row. -/
theorem written_append (echoes : Bool) (events further : List Event) :
    written echoes (events ++ further) = written echoes events ++ written echoes further := by
  simp [written]

/-- A machine that does not echo writes the same without the echoes. -/
theorem written_false (events : List Event) :
    written false events = (written true events).filter fun write => !write.isEchoed := by
  have each : Event.writes false =
      fun event => (event.writes true).filter fun write => !write.isEchoed := by
    funext event
    cases event <;> rfl
  simp [written, List.filter_flatMap, each]

/-- The machine echoes or not, and this is what it has written. -/
def Machine.told (machine : Machine) (echoes : Bool) (writes : Array Write) : Machine :=
  { machine with echoes, writes }

@[simp]
theorem Machine.told_store (machine : Machine) (echoes : Bool) (writes : Array Write) :
    (machine.told echoes writes).store = machine.store := rfl

/-- A plain step neither writes nor looks at what is written or echoed. -/
def Run.Plain {α : Type} (run : Run α) : Prop :=
  ∀ ⦃machine after : Machine⦄ ⦃result : Except RuntimeError α⦄,
    run machine = finished result after → ∀ echoes writes,
      run (machine.told echoes writes) = finished result (after.told echoes writes)

section Steps

/-- A plain step succeeds whatever the machine has written. -/
theorem Run.Plain.ok {α : Type} {run : Run α} (plain : Plain run) {machine after : Machine}
    {value : α} (ran : run machine = .ok value after) (echoes : Bool) (writes : Array Write) :
    run (machine.told echoes writes) = .ok value (after.told echoes writes) := by
  have given : run machine = finished (.ok value) after := ran
  exact plain given echoes writes

/-- A step that always succeeds and touches the store only is plain. -/
theorem plain_store {α : Type} (step : Store → α × Store) :
    Plain fun machine => .ok (step machine.store).1
      { machine with store := (step machine.store).2 } := by
  intro machine after result ran echoes writes
  have given : finished (.ok _) _ = finished result after := ran
  obtain ⟨rfl, rfl⟩ := finished_inj given
  rfl

theorem plain_newScope (parent : Nat) : Plain (Run.newScope parent) :=
  plain_store fun store => store.newScope parent

theorem plain_newFunction (function : Callable) : Plain (Run.newFunction function) :=
  plain_store fun store => store.newFunction function

theorem plain_declare (scope : Nat) (name : String) (value : Value) :
    Plain (Run.declare scope name value) :=
  plain_store fun store => ((), store.declare scope name value)

/-- An assignment writes nothing. -/
theorem plain_assign (scope : Nat) (name : Name) (value : Value) :
    Plain (Run.assign scope name value) := by
  intro machine after result ran echoes writes
  cases resolved : machine.store.resolve? name.text scope with
  | none =>
      rw [assign_of_none resolved] at ran
      obtain ⟨rfl, rfl⟩ := of_fail ran
      exact assign_of_none resolved
  | some found =>
      rw [assign_of_some resolved] at ran
      have told : (machine.told echoes writes).store.resolve? name.text scope = some found :=
        resolved
      rw [assign_of_some told]
      exact plain_declare found name.text value ran echoes writes

/-- Binding the parameters writes nothing. -/
theorem plain_bindParameters (scope : Nat) (names : List Name) (values : List Value) :
    Plain (bindParameters scope names values) := by
  induction names generalizing values with
  | nil =>
      intro machine after result ran echoes writes
      obtain ⟨rfl, rfl⟩ := of_pure ran
      rfl
  | cons name names inductionHypothesis =>
      intro machine after result ran echoes writes
      cases values with
      | nil =>
          obtain ⟨rfl, rfl⟩ := of_pure ran
          rfl
      | cons value values => exact inductionHypothesis values ran echoes writes

variable {machine after : Machine} {echoes : Bool} {writes : Array Write}

/-- An evaluated value is shown by a machine that echoes and by no other one. -/
theorem echo_told {value : Value} (echoed : Run.echo value machine = .ok () after) :
    Run.echo value (machine.told echoes writes) =
      .ok () (after.told echoes (writes ++ written echoes [.evaluated value])) := by
  cases echoed
  change EStateM.Result.ok () _ = _
  cases echoes <;> cases before : machine.echoes <;>
    simp [Machine.told, Machine.write, written, Event.writes, before]

/-- Texts are printed whether or not the machine echoes. -/
theorem printed_told (text : Value → String) (values : List Value) :
    values.foldl (fun after value => after.write (.printed (text value)))
        (machine.told echoes writes) =
      (values.foldl (fun after value => after.write (.printed (text value))) machine).told echoes
        (writes ++ written echoes (values.map fun value => .printed (text value))) := by
  induction values generalizing machine writes with
  | nil => simp
  | cons value rest inductionHypothesis =>
      have first : (machine.told echoes writes).write (.printed (text value)) =
          (machine.write (.printed (text value))).told echoes
            (writes ++ written echoes [.printed (text value)]) := by
        simp [Machine.told, Machine.write, written, Event.writes]
      rw [List.foldl_cons, first, inductionHypothesis, Array.append_assoc, ← written_append]
      rfl

/-- A native prints the same texts whether or not the machine echoes. -/
theorem callNative_told (native : Native) (values : List Value) :
    (machine.told echoes writes).callNative native values =
      ((machine.callNative native values).1, (machine.callNative native values).2.told echoes
        (writes ++ written echoes (native.prints values))) := by
  cases native with
  | clock => simp [Machine.callNative, Native.prints, Machine.told]
  | print => exact congrArg (Prod.mk _) (printed_told _ values)
  | println => exact congrArg (Prod.mk _) (printed_told _ values)
  | double =>
      rcases values with _ | ⟨_ | _ | _ | _ | _, _⟩ <;>
        simp [Machine.callNative, Native.prints]

end Steps

/-- A run goes the same way with and without echoes, after whatever was written. -/
theorem Runs.told {α : Type} {task : Task α} {machine after : Machine}
    {result : Except RuntimeError α} {events : List Event}
    (runs : Runs task machine result events after) (echoes : Bool) (writes : Array Write) :
    Runs task (machine.told echoes writes) result events
      (after.told echoes (writes ++ written echoes events)) := by
  induction runs generalizing writes with
  | constant => simpa using .constant
  | reference => simpa using .reference
  | omitted => simpa using .omitted
  | noExpressions => simpa using .noExpressions
  | noStatements => simpa using .noStatements
  | group _ inner => exact .group (inner writes)
  | unary _ operand => exact .unary (operand writes)
  | binaryFails _ first => exact .binaryFails (first writes)
  | binary _ _ first second =>
      rw [written_append, ← Array.append_assoc]
      exact .binary (first writes) (second _)
  | logicFails _ first => exact .logicFails (first writes)
  | logicDecided _ decides first => exact .logicDecided (first writes) decides
  | logic _ undecided _ first second =>
      rw [written_append, ← Array.append_assoc]
      exact .logic (first writes) undecided (second _)
  | assignFails _ value => exact .assignFails (value writes)
  | assign _ assigned value => exact .assign (value writes) (plain_assign _ _ _ assigned echoes _)
  | calleeFails _ callee => exact .calleeFails (callee writes)
  | invalidCallee _ other callee => exact .invalidCallee (callee writes) other
  | argumentsFail _ _ callee arguments =>
      rw [written_append, ← Array.append_assoc]
      exact .argumentsFail (callee writes) (arguments _)
  | argumentCount _ _ count callee arguments =>
      rw [written_append, ← Array.append_assoc]
      exact .argumentCount (callee writes) (arguments _) count
  | native _ _ count callee arguments =>
      rw [written_append, written_append, ← Array.append_assoc, ← Array.append_assoc]
      convert Runs.native (callee writes) (arguments _) count using 1
      all_goals rw [callNative_told]
  | closure _ _ count _ callee arguments body =>
      rw [written_append, written_append, ← Array.append_assoc, ← Array.append_assoc]
      exact .closure (callee writes) (arguments _) count (body _)
  | given _ expression => exact .given (expression writes)
  | expressionsFail _ first => exact .expressionsFail (first writes)
  | expressions _ _ first rest =>
      rw [written_append, ← Array.append_assoc]
      exact .expressions (first writes) (rest _)
  | call opened bound _ body =>
      exact .call ((plain_newScope _).ok opened echoes writes)
        ((plain_bindParameters _ _ _).ok bound echoes writes) (body writes)
  | expressionFails _ expression => exact .expressionFails (expression writes)
  | expression _ echoed expression =>
      rw [written_append, ← Array.append_assoc]
      exact .expression (expression writes) (echo_told echoed)
  | conditionFails _ condition => exact .conditionFails (condition writes)
  | success _ truthy _ condition branch =>
      rw [written_append, ← Array.append_assoc]
      exact .success (condition writes) truthy (branch _)
  | failure _ falsy _ condition branch =>
      rw [written_append, ← Array.append_assoc]
      exact .failure (condition writes) falsy (branch _)
  | noFailure _ falsy condition => exact .noFailure (condition writes) falsy
  | while_ _ loop => exact .while_ (loop writes)
  | func made bound =>
      have runs := Runs.func ((plain_newFunction _).ok made echoes writes)
        ((plain_declare _ _ _).ok bound echoes writes)
      simpa [written, Event.writes] using runs
  | letFails _ initial => exact .letFails (initial writes)
  | let_ _ bound initial => exact .let_ (initial writes) ((plain_declare _ _ _).ok bound echoes _)
  | return_ _ value => exact .return_ (value writes)
  | block opened _ body => exact .block ((plain_newScope _).ok opened echoes writes) (body writes)
  | statementsFail _ first => exact .statementsFail (first writes)
  | statementsReturn _ first => exact .statementsReturn (first writes)
  | statements _ _ first rest =>
      rw [written_append, ← Array.append_assoc]
      exact .statements (first writes) (rest _)
  | loopConditionFails _ condition => exact .loopConditionFails (condition writes)
  | loopEnds _ falsy condition => exact .loopEnds (condition writes) falsy
  | loopFails _ truthy _ condition body =>
      rw [written_append, ← Array.append_assoc]
      exact .loopFails (condition writes) truthy (body _)
  | loopReturns _ truthy _ condition body =>
      rw [written_append, ← Array.append_assoc]
      exact .loopReturns (condition writes) truthy (body _)
  | loopGoesOn _ truthy _ _ condition body rest =>
      rw [written_append, written_append, ← Array.append_assoc, ← Array.append_assoc]
      exact .loopGoesOn (condition writes) truthy (body _) (rest _)

/-- The account of a script is the same whether or not the machine echoes. -/
theorem Machine.Recounts.told {machine after : Machine} {trees : List Statement}
    {errors : List RuntimeError} {events : List Event}
    (recounts : machine.Recounts trees errors events after) (echoes : Bool)
    (writes : Array Write) :
    (machine.told echoes writes).Recounts trees errors events
      (after.told echoes (writes ++ written echoes events)) := by
  induction recounts generalizing writes with
  | nil => simpa using .nil
  | cons runs _ inductionHypothesis =>
      rw [written_append, ← Array.append_assoc]
      exact .cons (runs.told echoes writes) (inductionHypothesis _)

/-- A script that ends in one mode ends in every mode, with the same errors, scopes and events. -/
theorem Machine.Interprets.told {machine after : Machine} {trees : List Statement}
    {errors : List RuntimeError} (ends : machine.Interprets trees errors after) :
    ∃ events, ∀ echoes,
      (machine.told echoes machine.writes).Recounts trees errors events
        (after.told echoes (machine.writes ++ written echoes events)) := by
  obtain ⟨events, recounts⟩ := interprets_iff_recounts.1 ends
  exact ⟨events, fun echoes => recounts.told echoes machine.writes⟩

/-- The echo only observes. From the same machine, a script ends with echoes exactly if it ends
without them. Then both runs have the same errors, the same scopes and the same readings of the
clock, and they go through the same events. With echoes each evaluated expression statement adds
one write right after what it printed itself. Without echoes just these writes are missing. -/
theorem echo_observes (machine : Machine) (trees : List Statement) :
    ((∃ errors loud, { machine with echoes := true }.Interprets trees errors loud) ↔
      ∃ errors quiet, { machine with echoes := false }.Interprets trees errors quiet) ∧
    ∀ errors loud others quiet, { machine with echoes := true }.Interprets trees errors loud →
      { machine with echoes := false }.Interprets trees others quiet →
      errors = others ∧ loud.store = quiet.store ∧ loud.readings = quiet.readings ∧
      ∃ events, { machine with echoes := true }.Recounts trees errors events loud ∧
        { machine with echoes := false }.Recounts trees errors events quiet ∧
        loud.writes = machine.writes ++ written true events ∧
        quiet.writes = machine.writes ++ written false events ∧
        written false events = (written true events).filter fun write => !write.isEchoed := by
  constructor
  · constructor
    · rintro ⟨errors, loud, ends⟩
      obtain ⟨events, recounts⟩ := ends.told
      exact ⟨errors, _, Machine.interprets_iff_recounts.2 ⟨events, recounts false⟩⟩
    · rintro ⟨errors, quiet, ends⟩
      obtain ⟨events, recounts⟩ := ends.told
      exact ⟨errors, _, Machine.interprets_iff_recounts.2 ⟨events, recounts true⟩⟩
  · intro errors loud others quiet first second
    obtain ⟨events, recounts⟩ := first.told
    obtain ⟨-, same⟩ := first.unique (Machine.interprets_iff_recounts.2 ⟨events, recounts true⟩)
    obtain ⟨rfl, rfl⟩ := second.unique (Machine.interprets_iff_recounts.2 ⟨events, recounts false⟩)
    have loudly := recounts true
    rw [← same] at loudly
    exact ⟨rfl, rfl, rfl, events, loudly, recounts false, congrArg Machine.writes same, rfl,
      written_false events⟩

/-- A function prints and is called, and then an error follows. -/
theorem echo_observes_print :
    let machine := Machine.start (.ticking 0) false
    let trees : List Statement :=
      [.func ⟨"f", 1⟩ [] [.expression (.call (.reference ⟨"print", 2⟩)
          [.constant (.string "a") 2] 2)],
        .expression (.call (.reference ⟨"f", 3⟩) [] 3),
        .expression (.unary .negate (.constant .nil 4) 4)]
    ∃ errors loud quiet, { machine with echoes := true }.Interprets trees errors loud ∧
      { machine with echoes := false }.Interprets trees errors quiet ∧
      errors.map (·.fault.message) = ["Operand must be a number."] ∧
      loud.writes = #[.printed "a", .echoed "nil\n", .echoed "nil\n"] ∧
      quiet.writes = #[.printed "a"] ∧ loud.store = quiet.store := by
  intro machine trees
  have ran (echoes : Bool) : ∃ errors after,
      { machine with echoes }.Interprets trees errors after ∧
      errors.map (·.fault.message) = ["Operand must be a number."] ∧
      after.writes = if echoes then #[.printed "a", .echoed "nil\n", .echoed "nil\n"]
        else #[.printed "a"] := by
    have observed : (Machine.interpret 9 { machine with echoes } trees).map
        (fun ended => (ended.1.map (·.fault.message), ended.2.writes)) =
          some (["Operand must be a number."], if echoes then
            #[.printed "a", .echoed "nil\n", .echoed "nil\n"] else #[.printed "a"]) := by
      cases echoes <;> decide +kernel
    obtain ⟨⟨errors, after⟩, ends, same⟩ := Option.map_eq_some_iff.1 observed
    obtain ⟨messages, writes⟩ := Prod.mk.inj same
    exact ⟨errors, after, ⟨9, ends⟩, messages, writes⟩
  obtain ⟨errors, loud, first, messages, louder⟩ := ran true
  obtain ⟨others, quiet, second, -, quieter⟩ := ran false
  obtain ⟨rfl, stores, -⟩ := (echo_observes machine trees).2 _ _ _ _ first second
  exact ⟨errors, loud, quiet, first, second, messages, louder, quieter, stores⟩

end Offside
