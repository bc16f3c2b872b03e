/-
This file is about whole scripts. A script may be run in parts, and its lines matter for the lines
of its errors only.
-/

import Offside.Session
import Offside.Proofs.Evaluation.Twins

namespace Offside

namespace Machine

open Run

/-- A statement adds its error, if it has one. -/
def failure {α : Type} : Except RuntimeError α → List RuntimeError
  | .ok _ => []
  | .error error => [error]

/-- With enough fuel the statements end like this. -/
def Interprets (machine : Machine) (trees : List Statement) (errors : List RuntimeError)
    (after : Machine) : Prop :=
  ∃ fuel, machine.interpret fuel trees = some (errors, after)

section Scripts

variable {fuel : Nat} {machine after : Machine} {errors : List RuntimeError}

/-- A script adds the error of its first statement and goes on with the others. -/
theorem interpret_cons {tree : Statement} {trees : List Statement}
    {result : Except RuntimeError Signal} {middle : Machine}
    (ran : execute fuel globals tree machine = finished result middle) :
    machine.interpret fuel (tree :: trees) =
      (middle.interpret fuel trees).map fun (others, last) => (failure result ++ others, last) := by
  rw [interpret, ran]
  cases result with
  | ok signal => exact Option.map_id'.symm
  | error error => rfl

/-- A script ends only if its first statement does. -/
theorem finished_of_interpret {tree : Statement} {trees : List Statement}
    (ends : machine.interpret fuel (tree :: trees) = some (errors, after)) :
    ∃ result middle, execute fuel globals tree machine = finished result middle := by
  rcases ran : execute fuel globals tree machine with ⟨signal, middle⟩ | ⟨error | _, middle⟩
  · exact ⟨.ok signal, middle, rfl⟩
  · exact ⟨.error error, middle, rfl⟩
  · rw [interpret, ran] at ends
    cases ends

/-- A script ends when its first statement ends and the others do. -/
theorem interpret_cons_eq_some {tree : Statement} {trees : List Statement} :
    machine.interpret fuel (tree :: trees) = some (errors, after) ↔
      ∃ result middle others, execute fuel globals tree machine = finished result middle ∧
        middle.interpret fuel trees = some (others, after) ∧ errors = failure result ++ others := by
  constructor
  · intro ends
    obtain ⟨result, middle, ran⟩ := finished_of_interpret ends
    rw [interpret_cons ran] at ends
    obtain ⟨⟨others, last⟩, rest, same⟩ := Option.map_eq_some_iff.1 ends
    cases same
    exact ⟨result, middle, others, ran, rest, rfl⟩
  · rintro ⟨result, middle, others, ran, rest, rfl⟩
    rw [interpret_cons ran, rest]
    rfl

/-- More fuel does not change how a script ends. -/
theorem interpret_steady {more : Nat} {trees : List Statement} (enough : fuel ≤ more)
    (ends : machine.interpret fuel trees = some (errors, after)) :
    machine.interpret more trees = some (errors, after) := by
  induction trees generalizing machine errors with
  | nil => exact ends
  | cons tree trees inductionHypothesis =>
      obtain ⟨result, middle, others, ran, rest, same⟩ := interpret_cons_eq_some.1 ends
      exact interpret_cons_eq_some.2 ⟨result, middle, others,
        steady_execute globals tree enough ran, inductionHypothesis rest, same⟩

/-- A script ends in one way only. -/
theorem Interprets.unique {trees : List Statement} {found : List RuntimeError} {last : Machine}
    (ends : machine.Interprets trees errors after) (again : machine.Interprets trees found last) :
    errors = found ∧ after = last := by
  obtain ⟨fuel, ends⟩ := ends
  obtain ⟨more, again⟩ := again
  have first := interpret_steady (Nat.le_max_left fuel more) ends
  have second := interpret_steady (Nat.le_max_right fuel more) again
  rw [first] at second
  cases second
  exact ⟨rfl, rfl⟩

/-- Two scripts in a row end as the first and then the second. -/
theorem interpret_append_eq_some {trees others : List Statement} :
    machine.interpret fuel (trees ++ others) = some (errors, after) ↔
      ∃ first middle second, machine.interpret fuel trees = some (first, middle) ∧
        middle.interpret fuel others = some (second, after) ∧ errors = first ++ second := by
  induction trees generalizing machine errors with
  | nil =>
      constructor
      · intro ends
        exact ⟨[], machine, errors, rfl, ends, rfl⟩
      · rintro ⟨first, middle, second, start, rest, rfl⟩
        cases start
        exact rest
  | cons tree trees inductionHypothesis =>
      rw [List.cons_append, interpret_cons_eq_some]
      constructor
      · rintro ⟨result, next, _, ran, rest, rfl⟩
        obtain ⟨first, middle, second, start, further, rfl⟩ := inductionHypothesis.1 rest
        refine ⟨failure result ++ first, middle, second, ?_, further, ?_⟩
        · exact interpret_cons_eq_some.2 ⟨result, next, first, ran, start, rfl⟩
        · rw [List.append_assoc]
      · rintro ⟨_, middle, second, start, further, rfl⟩
        obtain ⟨result, next, first, ran, rest, rfl⟩ := interpret_cons_eq_some.1 start
        refine ⟨result, next, first ++ second, ran, ?_, ?_⟩
        · exact inductionHypothesis.2 ⟨first, middle, second, rest, further, rfl⟩
        · rw [List.append_assoc]

/-- A script is run in parts, each from where the one before it ends. -/
theorem interprets_append {trees others : List Statement} :
    machine.Interprets (trees ++ others) errors after ↔
      ∃ first middle second, machine.Interprets trees first middle ∧
        middle.Interprets others second after ∧ errors = first ++ second := by
  constructor
  · rintro ⟨fuel, ends⟩
    obtain ⟨first, middle, second, start, rest, same⟩ := interpret_append_eq_some.1 ends
    exact ⟨first, middle, second, ⟨fuel, start⟩, ⟨fuel, rest⟩, same⟩
  · rintro ⟨first, middle, second, ⟨fuel, start⟩, ⟨more, rest⟩, same⟩
    refine ⟨max fuel more, interpret_append_eq_some.2 ⟨first, middle, second, ?_, ?_, same⟩⟩
    · exact interpret_steady (Nat.le_max_left fuel more) start
    · exact interpret_steady (Nat.le_max_right fuel more) rest

end Scripts

section Lines

variable {line : Nat → Nat} {start start' : Machine}

/-- Statements that end alike add errors that are alike. -/
theorem failure_alike {result other : Except RuntimeError Signal} {alike : Signal → Signal → Prop}
    (results : EndsAlike line alike result other) :
    (failure result).map (RuntimeError.reline line) =
      (failure other).map (RuntimeError.reline line) := by
  cases result <;> cases other
  case error.error error found => exact congrArg (fun error => [error]) results
  case ok.ok => rfl
  all_goals exact results.elim

/-- Twins run the same statements on other lines in the same way. -/
theorem interpret_twins {fuel : Nat} {left right after : Machine} {trees others : List Statement}
    {errors : List RuntimeError} (twins : Twins line (fun _ => True) start start' left right)
    (same : trees.map (Statement.reline line) = others.map (Statement.reline line))
    (ends : left.interpret fuel trees = some (errors, after)) :
    ∃ found last, right.interpret fuel others = some (found, last) ∧
      errors.map (RuntimeError.reline line) = found.map (RuntimeError.reline line) ∧
      Twins line (fun _ => True) start start' after last := by
  induction trees generalizing left right others errors with
  | nil =>
      cases ends
      obtain rfl := List.map_eq_nil_iff.1 same.symm
      exact ⟨[], right, rfl, rfl, twins⟩
  | cons tree trees inductionHypothesis =>
      obtain ⟨other, others, rfl, first, rest⟩ := List.map_eq_cons_iff.1 same.symm
      obtain ⟨result, middle, more, ran, further, rfl⟩ := interpret_cons_eq_some.1 ends
      let pair := Lockstep.twins line (fun _ => True) start start'
      have tracks : pair.Tracks (Signal.Alike line fun _ => True) (execute fuel globals tree)
          (execute fuel globals other) :=
        (Lockstep.follows fuel fuel (Nat.le_refl fuel)).execute trivial (fun _ _ => trivial)
          first.symm
      obtain ⟨found, next, again, results, later⟩ := tracks.finished twins ran
      obtain ⟨errors, last, run, alike, final⟩ := inductionHypothesis later rest.symm further
      refine ⟨failure found ++ errors, last, ?_, ?_, final⟩
      · exact interpret_cons_eq_some.2 ⟨found, next, errors, again, run, rfl⟩
      · have failures : (failure result).map (RuntimeError.reline line) =
            (failure found).map (RuntimeError.reline line) := failure_alike results
        rw [List.map_append, List.map_append, failures, alike]

/-- Every machine is its own twin. -/
theorem Twins.refl (line : Nat → Nat) (machine : Machine) :
    Twins line (fun _ => True) machine machine machine machine where
  stores := by
    refine ⟨rfl, rfl, fun _ _ => trivial, fun _ _ => rfl, fun _ _ _ _ => trivial, ?_⟩
    intro scope name _
    cases machine.store.local? scope name with
    | none => exact .none
    | some value => exact .some (Value.Alike.refl value)
  echoes := rfl
  clocks _ := rfl
  writes := ⟨#[], by simp, by simp⟩
  unseen _ hidden := absurd trivial hidden

/-- Errors that differ only in lines have the same messages. -/
theorem messages_eq {errors found : List RuntimeError}
    (same : errors.map (RuntimeError.reline line) = found.map (RuntimeError.reline line)) :
    errors.map (·.fault.message) = found.map (·.fault.message) := by
  have messages := congrArg (List.map (·.fault.message)) same
  simpa [RuntimeError.reline, Function.comp_def] using messages

/-- The same statements on other lines write the same and fail with the same messages. -/
theorem Interprets.relined {machine after : Machine} {trees others : List Statement}
    {errors : List RuntimeError} (ends : machine.Interprets trees errors after)
    (same : trees.map (Statement.reline line) = others.map (Statement.reline line)) :
    ∃ found last, machine.Interprets others found last ∧
      errors.map (·.fault.message) = found.map (·.fault.message) ∧ after.writes = last.writes := by
  obtain ⟨fuel, ends⟩ := ends
  obtain ⟨found, last, again, alike, twins⟩ := interpret_twins (Twins.refl line machine) same ends
  obtain ⟨added, left, right⟩ := twins.writes
  exact ⟨found, last, ⟨fuel, again⟩, messages_eq alike, left.trans right.symm⟩

end Lines

end Machine

end Offside
