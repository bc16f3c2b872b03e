/-
This file compares the rules of a run with the evaluator. With enough fuel the evaluator ends
exactly as the rules say.
-/

import Offside.Proofs.Evaluation.Course
import Offside.Proofs.Evaluation.Scripts
import Mathlib.Order.Filter.AtTopBot.Basic

namespace Offside

namespace Run

variable {α β : Type} {machine middle after : Machine}

/-- The result of an operation is blamed on its line and leaves the machine alone. -/
theorem ofExcept_apply (line : Nat) (result : Except Fault α) (machine : Machine) :
    Run.ofExcept line result machine = finished (blame line result) machine := by
  cases result <;> rfl

/-- A run that gives a value goes on with what comes next. -/
theorem bind_ok {run : Run α} {next : α → Run β} {value : α}
    (ends : run machine = finished (.ok value) middle) :
    (run >>= next) machine = next value middle := by
  change EStateM.bind run next machine = _
  rw [EStateM.bind, ends]
  rfl

/-- A run that fails leaves out what comes next. -/
theorem bind_error {run : Run α} {next : α → Run β} {error : RuntimeError}
    (ends : run machine = finished (.error error) after) :
    (run >>= next) machine = finished (.error error) after := by
  change EStateM.bind run next machine = _
  rw [EStateM.bind, ends]
  rfl

/-- What follows a run may be put into its result. -/
theorem bind_give {run : Run α} (give : α → β) {result : Except RuntimeError α}
    (ends : run machine = finished result after) :
    (run >>= fun value => pure (give value)) machine = finished (result.map give) after := by
  cases result with
  | ok value => exact bind_ok ends
  | error error => exact bind_error ends

/-- An operation on the value of a run ends the run with its blamed result. -/
theorem bind_ofExcept {run : Run α} (line : Nat) (give : α → Except Fault β)
    {result : Except RuntimeError α} (ends : run machine = finished result after) :
    (run >>= fun value => Run.ofExcept line (give value)) machine =
      finished (result.bind fun value => blame line (give value)) after := by
  cases result with
  | ok value => exact (bind_ok ends).trans (ofExcept_apply line _ _)
  | error error => exact bind_error ends

/-- Two runs in a row end where the first one fails or where the second one ends. -/
theorem of_bind {run : Run α} {next : α → Run β} {result : Except RuntimeError β}
    (ends : (run >>= next) machine = finished result after) :
    (∃ error, run machine = finished (.error error) after ∧ result = .error error) ∨
      ∃ value middle, run machine = finished (.ok value) middle ∧
        next value middle = finished result after := by
  rcases ran : run machine with ⟨value, middle⟩ | ⟨error | _, middle⟩
  · have first : run machine = finished (.ok value) middle := ran
    rw [bind_ok first] at ends
    exact .inr ⟨value, middle, rfl, ends⟩
  · have first : run machine = finished (.error error) middle := ran
    rw [bind_error first] at ends
    obtain ⟨same, rfl⟩ := finished_inj ends
    exact .inl ⟨error, rfl, same.symm⟩
  · change EStateM.bind run next machine = _ at ends
    rw [EStateM.bind, ran] at ends
    cases result <;> cases ends

/-- A run with a mapped value ended as the run itself did. -/
theorem of_bind_pure {run : Run α} {give : α → β} {result : Except RuntimeError β}
    (ends : (run >>= fun value => pure (give value)) machine = finished result after) :
    ∃ first, run machine = finished first after ∧ result = first.map give := by
  obtain ⟨error, first, rfl⟩ | ⟨value, middle, first, ends⟩ := of_bind ends
  · exact ⟨.error error, first, rfl⟩
  · have last : finished (.ok (give value)) middle = finished result after := ends
    obtain ⟨rfl, rfl⟩ := finished_inj last
    exact ⟨.ok value, first, rfl⟩

/-- A run that only gives a value ends with it in the same machine. -/
theorem of_pure {value : α} {result : Except RuntimeError α}
    (ends : (pure value : Run α) machine = finished result after) :
    result = .ok value ∧ after = machine := by
  have given : finished (.ok value) machine = finished result after := ends
  obtain ⟨same, rfl⟩ := finished_inj given
  exact ⟨same.symm, rfl⟩

/-- A run that only fails ends with that fault in the same machine. -/
theorem of_fail {line : Nat} {fault : Fault} {result : Except RuntimeError α}
    (ends : (fail line fault : Run α) machine = finished result after) :
    result = .error ⟨fault, line⟩ ∧ after = machine := by
  have given : finished (.error ⟨fault, line⟩) machine = finished result after := ends
  obtain ⟨same, rfl⟩ := finished_inj given
  exact ⟨same.symm, rfl⟩

/-- A run without fuel never ends. -/
theorem of_exhausted {result : Except RuntimeError α}
    (ends : exhausted machine = finished result after) : False := by
  cases result <;> cases ends

/-- The parameters of a call can always be bound. -/
theorem bindParameters_ok (scope : Nat) (names : List Name) (values : List Value)
    (machine : Machine) : ∃ inside, bindParameters scope names values machine = .ok () inside := by
  induction names generalizing values machine with
  | nil => exact ⟨machine, rfl⟩
  | cons name names inductionHypothesis =>
      cases values with
      | nil => exact ⟨machine, rfl⟩
      | cons value values => exact inductionHypothesis values _

end Run

open Run

/-- A conditional evaluates its condition and then runs one branch. -/
theorem execute_if (fuel scope : Nat) (condition : Expression) (success : Statement)
    (failure : Option Statement) :
    execute (fuel + 1) scope (.if_ condition success failure) = do
      let value ← evaluate fuel scope condition
      if value.isTruthy then execute fuel scope success
      else match failure with
        | some other => execute fuel scope other
        | none => return .ran .nil := by
  cases failure <;> rfl

/-- Whatever a part of the evaluator ends with, the rules give for its task. -/
def Accounts {α : Type} (fuel : Nat) (task : Task α) : Prop :=
  ∀ ⦃machine after : Machine⦄ ⦃result : Except RuntimeError α⦄,
    task.run fuel machine = finished result after → ∃ events, Runs task machine result events after

section Sound

variable {α β : Type} {fuel scope : Nat} {machine after : Machine}

/-- A task is followed by more. It fails, or the rest goes on from its value. -/
theorem Accounts.of_bind {task : Task α} (accounts : Accounts fuel task) {next : α → Run β}
    {result : Except RuntimeError β}
    (ends : (task.run fuel >>= next) machine = finished result after) :
    (∃ error events, Runs task machine (.error error) events after ∧ result = .error error) ∨
      ∃ value middle events, Runs task machine (.ok value) events middle ∧
        next value middle = finished result after := by
  obtain ⟨error, first, same⟩ | ⟨value, middle, first, rest⟩ := Run.of_bind ends
  · obtain ⟨events, runs⟩ := accounts first
    exact .inl ⟨error, events, runs, same⟩
  · obtain ⟨events, runs⟩ := accounts first
    exact .inr ⟨value, middle, events, runs, rest⟩

/-- A task is followed by a change of its value. -/
theorem Accounts.of_bind_pure {task : Task α} (accounts : Accounts fuel task) {give : α → β}
    {result : Except RuntimeError β}
    (ends : (task.run fuel >>= fun value => pure (give value)) machine = finished result after) :
    ∃ first events, Runs task machine first events after ∧ result = first.map give := by
  obtain ⟨error, events, runs, rfl⟩ | ⟨value, middle, events, runs, ends⟩ := accounts.of_bind ends
  · exact ⟨.error error, events, runs, rfl⟩
  · obtain ⟨rfl, rfl⟩ := of_pure ends
    exact ⟨.ok value, events, runs, rfl⟩

/-- A task is followed by an operation on its value. -/
theorem Accounts.of_bind_ofExcept {task : Task α} (accounts : Accounts fuel task) {line : Nat}
    {give : α → Except Fault β} {result : Except RuntimeError β}
    (ends : (task.run fuel >>= fun value => Run.ofExcept line (give value)) machine =
      finished result after) :
    ∃ first events, Runs task machine first events after ∧
      result = first.bind fun value => blame line (give value) := by
  obtain ⟨error, events, runs, rfl⟩ | ⟨value, middle, events, runs, ends⟩ := accounts.of_bind ends
  · exact ⟨.error error, events, runs, rfl⟩
  · rw [ofExcept_apply] at ends
    obtain ⟨rfl, rfl⟩ := finished_inj ends
    exact ⟨.ok value, events, runs, rfl⟩

section Step

variable (all : ∀ {α : Type} (task : Task α), Accounts fuel task)

include all

/-- A call expression ends as its rules say. -/
theorem callExpression_accounts (callee : Expression) (arguments : List Expression) (line : Nat) :
    Accounts (fuel + 1) (.evaluate scope (.call callee arguments line)) := by
  intro machine after result ends
  change evaluate (fuel + 1) scope (.call callee arguments line) machine = _ at ends
  rw [evaluate] at ends
  obtain ⟨error, events, runs, rfl⟩ | ⟨found, middle, events, runs, ends⟩ :=
    (all (.evaluate scope callee)).of_bind ends
  · exact ⟨_, .calleeFails runs⟩
  cases found with
  | callable function identity =>
      obtain ⟨error, further, more, rfl⟩ | ⟨values, last, further, more, ends⟩ :=
        (all (.evaluateAll scope arguments)).of_bind ends
      · exact ⟨_, .argumentsFail runs more⟩
      split at ends
      · next count =>
          cases function with
          | native function =>
              change Run.callNative line function values last = _ at ends
              rw [callNative_apply, ofExcept_apply] at ends
              obtain ⟨rfl, rfl⟩ := finished_inj ends
              exact ⟨_, .native runs more count⟩
          | closure closure =>
              obtain ⟨inner, body⟩ := all (.call closure values) ends
              exact ⟨_, .closure runs more count body⟩
      · next count =>
          obtain ⟨rfl, rfl⟩ := of_fail ends
          exact ⟨_, .argumentCount runs more count⟩
  | nil | bool | number | string =>
      obtain ⟨rfl, rfl⟩ := of_fail ends
      exact ⟨_, .invalidCallee runs (by simp)⟩

/-- One more unit of fuel accounts for every expression. -/
theorem evaluate_accounts (expression : Expression) :
    Accounts (fuel + 1) (.evaluate scope expression) := by
  intro machine after result ends
  change evaluate (fuel + 1) scope expression machine = _ at ends
  cases expression with
  | constant value line =>
      obtain ⟨rfl, rfl⟩ := of_pure ends
      exact ⟨_, .constant⟩
  | reference name =>
      rw [evaluate, get_apply, ofExcept_apply] at ends
      obtain ⟨rfl, rfl⟩ := finished_inj ends
      exact ⟨_, .reference⟩
  | group inner =>
      obtain ⟨events, runs⟩ := all (.evaluate scope inner) ends
      exact ⟨_, .group runs⟩
  | unary operator operand line =>
      rw [evaluate] at ends
      obtain ⟨value, events, runs, rfl⟩ := (all (.evaluate scope operand)).of_bind_ofExcept ends
      exact ⟨_, .unary runs⟩
  | binary operator left right line =>
      rw [evaluate] at ends
      obtain ⟨error, events, runs, rfl⟩ | ⟨value, middle, events, runs, ends⟩ :=
        (all (.evaluate scope left)).of_bind ends
      · exact ⟨_, .binaryFails runs⟩
      obtain ⟨second, further, more, rfl⟩ := (all (.evaluate scope right)).of_bind_ofExcept ends
      exact ⟨_, .binary runs more⟩
  | logic operator left right line =>
      rw [evaluate] at ends
      obtain ⟨error, events, runs, rfl⟩ | ⟨value, middle, events, runs, ends⟩ :=
        (all (.evaluate scope left)).of_bind ends
      · exact ⟨_, .logicFails runs⟩
      split at ends
      · next decides =>
          obtain ⟨rfl, rfl⟩ := of_pure ends
          exact ⟨_, .logicDecided runs decides⟩
      · next undecided =>
          obtain ⟨second, further, more, rfl⟩ := (all (.evaluate scope right)).of_bind_pure ends
          exact ⟨_, .logic runs (Bool.eq_false_iff.2 undecided) more⟩
  | assign name value =>
      rw [evaluate] at ends
      obtain ⟨error, events, runs, rfl⟩ | ⟨found, middle, events, runs, ends⟩ :=
        (all (.evaluate scope value)).of_bind ends
      · exact ⟨_, .assignFails runs⟩
      obtain ⟨done, assigned, rfl⟩ := Run.of_bind_pure ends
      exact ⟨_, .assign runs assigned⟩
  | call callee arguments line => exact callExpression_accounts all callee arguments line ends

/-- One more unit of fuel accounts for every list of arguments. -/
theorem evaluateAll_accounts (expressions : List Expression) :
    Accounts (fuel + 1) (.evaluateAll scope expressions) := by
  intro machine after result ends
  change evaluateAll (fuel + 1) scope expressions machine = _ at ends
  cases expressions with
  | nil =>
      obtain ⟨rfl, rfl⟩ := of_pure ends
      exact ⟨_, .noExpressions⟩
  | cons expression rest =>
      rw [evaluateAll] at ends
      obtain ⟨error, events, runs, rfl⟩ | ⟨value, middle, events, runs, ends⟩ :=
        (all (.evaluate scope expression)).of_bind ends
      · exact ⟨_, .expressionsFail runs⟩
      obtain ⟨values, further, more, rfl⟩ := (all (.evaluateAll scope rest)).of_bind_pure ends
      exact ⟨_, .expressions runs more⟩

/-- One more unit of fuel accounts for every call. -/
theorem call_accounts (closure : Closure) (arguments : List Value) :
    Accounts (fuel + 1) (.call closure arguments) := by
  intro machine after result ends
  change call (fuel + 1) closure arguments machine = _ at ends
  rw [call] at ends
  obtain ⟨scope, middle, opened⟩ : ∃ scope middle,
      Run.newScope closure.scope machine = .ok scope middle := ⟨_, _, rfl⟩
  obtain ⟨inside, bound⟩ := bindParameters_ok scope closure.parameters arguments middle
  rw [bind_ok opened, bind_ok bound] at ends
  obtain ⟨signal, events, runs, rfl⟩ :=
    (all (.executeAll scope .nil closure.body)).of_bind_pure ends
  exact ⟨_, .call opened bound runs⟩

/-- A conditional ends as its rules say. -/
theorem if_accounts (condition : Expression) (success : Statement) (failure : Option Statement) :
    Accounts (fuel + 1) (.execute scope (.if_ condition success failure)) := by
  intro machine after result ends
  change execute (fuel + 1) scope (.if_ condition success failure) machine = _ at ends
  rw [execute_if] at ends
  obtain ⟨error, events, runs, rfl⟩ | ⟨value, middle, events, runs, ends⟩ :=
    (all (.evaluate scope condition)).of_bind ends
  · exact ⟨_, .conditionFails runs⟩
  split at ends
  · next truthy =>
      obtain ⟨further, more⟩ := all (.execute scope success) ends
      exact ⟨_, .success runs truthy more⟩
  · next falsy =>
      cases failure with
      | none =>
          obtain ⟨rfl, rfl⟩ := of_pure ends
          exact ⟨_, .noFailure runs (Bool.eq_false_iff.2 falsy)⟩
      | some other =>
          obtain ⟨further, more⟩ := all (.execute scope other) ends
          exact ⟨_, .failure runs (Bool.eq_false_iff.2 falsy) more⟩

/-- One more unit of fuel accounts for every statement. -/
theorem execute_accounts (statement : Statement) :
    Accounts (fuel + 1) (.execute scope statement) := by
  intro machine after result ends
  change execute (fuel + 1) scope statement machine = _ at ends
  cases statement with
  | expression expression =>
      rw [execute] at ends
      obtain ⟨error, events, runs, rfl⟩ | ⟨value, middle, events, runs, ends⟩ :=
        (all (.evaluate scope expression)).of_bind ends
      · exact ⟨_, .expressionFails runs⟩
      obtain ⟨last, echoed⟩ : ∃ last, Run.echo value middle = .ok () last := ⟨_, rfl⟩
      rw [bind_ok echoed] at ends
      obtain ⟨rfl, rfl⟩ := of_pure ends
      exact ⟨_, .expression runs echoed⟩
  | if_ condition success failure => exact if_accounts all condition success failure ends
  | while_ condition body =>
      obtain ⟨events, runs⟩ := all (.loop scope condition body) ends
      exact ⟨_, .while_ runs⟩
  | func name parameters body =>
      obtain ⟨function, middle, made⟩ : ∃ function middle,
          Run.newFunction (.closure ⟨name, parameters, body, scope⟩) machine =
            .ok function middle := ⟨_, _, rfl⟩
      obtain ⟨last, bound⟩ : ∃ last, Run.declare scope name.text function middle = .ok () last :=
        ⟨_, rfl⟩
      rw [execute, bind_ok made, bind_ok bound] at ends
      obtain ⟨rfl, rfl⟩ := of_pure ends
      exact ⟨_, .func made bound⟩
  | let_ name initial =>
      rw [execute_let] at ends
      obtain ⟨error, events, runs, rfl⟩ | ⟨value, middle, events, runs, ends⟩ :=
        (all (.evaluateOptional scope initial)).of_bind ends
      · exact ⟨_, .letFails runs⟩
      obtain ⟨last, bound⟩ : ∃ last, Run.declare scope name.text value middle = .ok () last :=
        ⟨_, rfl⟩
      rw [bind_ok bound] at ends
      obtain ⟨rfl, rfl⟩ := of_pure ends
      exact ⟨_, .let_ runs bound⟩
  | return_ line value =>
      rw [execute_return] at ends
      obtain ⟨found, events, runs, rfl⟩ := (all (.evaluateOptional scope value)).of_bind_pure ends
      exact ⟨_, .return_ runs⟩
  | block statements =>
      rw [execute] at ends
      obtain ⟨inner, inside, opened⟩ : ∃ inner inside,
          Run.newScope scope machine = .ok inner inside := ⟨_, _, rfl⟩
      rw [bind_ok opened] at ends
      obtain ⟨events, runs⟩ := all (.executeAll inner .nil statements) ends
      exact ⟨_, .block opened runs⟩

/-- One more unit of fuel accounts for every list of statements. -/
theorem executeAll_accounts (last : Value) (statements : List Statement) :
    Accounts (fuel + 1) (.executeAll scope last statements) := by
  intro machine after result ends
  change executeAll (fuel + 1) scope last statements machine = _ at ends
  cases statements with
  | nil =>
      obtain ⟨rfl, rfl⟩ := of_pure ends
      exact ⟨_, .noStatements⟩
  | cons statement rest =>
      rw [executeAll] at ends
      obtain ⟨error, events, runs, rfl⟩ | ⟨signal, middle, events, runs, ends⟩ :=
        (all (.execute scope statement)).of_bind ends
      · exact ⟨_, .statementsFail runs⟩
      cases signal with
      | ran value =>
          obtain ⟨further, more⟩ := all (.executeAll scope value rest) ends
          exact ⟨_, .statements runs more⟩
      | returned value =>
          obtain ⟨rfl, rfl⟩ := of_pure ends
          exact ⟨_, .statementsReturn runs⟩

/-- One more unit of fuel accounts for every loop. -/
theorem loop_accounts (condition : Expression) (body : Statement) :
    Accounts (fuel + 1) (.loop scope condition body) := by
  intro machine after result ends
  change loop (fuel + 1) scope condition body machine = _ at ends
  rw [loop] at ends
  obtain ⟨error, events, runs, rfl⟩ | ⟨value, middle, events, runs, ends⟩ :=
    (all (.evaluate scope condition)).of_bind ends
  · exact ⟨_, .loopConditionFails runs⟩
  split at ends
  · next truthy =>
      obtain ⟨error, further, more, rfl⟩ | ⟨signal, last, further, more, ends⟩ :=
        (all (.execute scope body)).of_bind ends
      · exact ⟨_, .loopFails runs truthy more⟩
      cases signal with
      | ran found =>
          obtain ⟨later, again⟩ := all (.loop scope condition body) ends
          exact ⟨_, .loopGoesOn runs truthy more again⟩
      | returned found =>
          obtain ⟨rfl, rfl⟩ := of_pure ends
          exact ⟨_, .loopReturns runs truthy more⟩
  · next falsy =>
      obtain ⟨rfl, rfl⟩ := of_pure ends
      exact ⟨_, .loopEnds runs (Bool.eq_false_iff.2 falsy)⟩

end Step

/-- An expression that is left out ends as its rule says. -/
theorem evaluateOptional_accounts (all : ∀ expression, Accounts fuel (.evaluate scope expression))
    (expression : Option Expression) : Accounts fuel (.evaluateOptional scope expression) := by
  intro machine after result ends
  cases expression with
  | none =>
      obtain ⟨rfl, rfl⟩ := of_pure ends
      exact ⟨_, .omitted⟩
  | some expression =>
      obtain ⟨events, runs⟩ := all expression ends
      exact ⟨_, .given runs⟩

/-- The rules account for every run that ends. -/
theorem accounts (fuel : Nat) {α : Type} (task : Task α) : Accounts fuel task := by
  -- An optional expression does not use up fuel, so it takes the step of its expression.
  induction fuel generalizing α with
  | zero =>
      cases task with
      | evaluateOptional scope expression =>
          apply evaluateOptional_accounts
          exact fun _ _ _ _ ends => (of_exhausted ends).elim
      | evaluate | evaluateAll | call | execute | executeAll | loop =>
          exact fun _ _ _ ends => (of_exhausted ends).elim
  | succ fuel inductionHypothesis =>
      cases task with
      | evaluate scope expression => exact evaluate_accounts inductionHypothesis expression
      | evaluateOptional scope expression =>
          exact evaluateOptional_accounts (evaluate_accounts inductionHypothesis) expression
      | evaluateAll scope expressions => exact evaluateAll_accounts inductionHypothesis expressions
      | call closure arguments => exact call_accounts inductionHypothesis closure arguments
      | execute scope statement => exact execute_accounts inductionHypothesis statement
      | executeAll scope last statements =>
          exact executeAll_accounts inductionHypothesis last statements
      | loop scope condition body => exact loop_accounts inductionHypothesis condition body

end Sound

section Complete

open Filter

/-- What holds with one more unit of fuel from some point on holds from some point on. -/
theorem eventually_succ {holds : Nat → Prop} (later : ∀ᶠ fuel in atTop, holds (fuel + 1)) :
    ∀ᶠ fuel in atTop, holds fuel := by
  rwa [← map_add_atTop_eq_nat 1, eventually_map]

/-- What the rules give, the evaluator ends with, given enough fuel. -/
theorem Runs.eventually {α : Type} {task : Task α} {machine after : Machine}
    {result : Except RuntimeError α} {events : List Event}
    (runs : Runs task machine result events after) :
    ∀ᶠ fuel in atTop, task.run fuel machine = finished result after := by
  -- The premises of a rule hold from some fuel on, so they share a fuel from some point on.
  induction runs with
  | omitted => exact .of_forall fun _ => rfl
  | given _ inner => exact inner
  | constant | noExpressions | noStatements =>
      apply eventually_succ
      exact .of_forall fun _ => rfl
  | reference =>
      apply eventually_succ
      exact .of_forall fun _ => ofExcept_apply _ _ _
  | group _ inner | while_ _ inner =>
      apply eventually_succ
      filter_upwards [inner] with fuel ran
      exact ran
  | unary _ operand =>
      apply eventually_succ
      filter_upwards [operand] with fuel ran
      exact bind_ofExcept _ _ ran
  | binaryFails _ first | logicFails _ first | assignFails _ first | calleeFails _ first
  | expressionsFail _ first | expressionFails _ first | statementsFail _ first
  | loopConditionFails _ first =>
      apply eventually_succ
      filter_upwards [first] with fuel failed
      exact bind_error failed
  | binary _ _ first second =>
      apply eventually_succ
      filter_upwards [first, second] with fuel left right
      exact (bind_ok left).trans (bind_ofExcept _ _ right)
  | logicDecided _ decides first =>
      apply eventually_succ
      filter_upwards [first] with fuel left
      apply (bind_ok left).trans
      rw [if_pos decides]
      rfl
  | logic _ open_ _ first second =>
      apply eventually_succ
      filter_upwards [first, second] with fuel left right
      apply (bind_ok left).trans
      rw [if_neg (Bool.eq_false_iff.1 open_)]
      exact bind_give _ right
  | assign _ assigned value =>
      apply eventually_succ
      filter_upwards [value] with fuel ran
      exact (bind_ok ran).trans (bind_give _ assigned)
  | @invalidCallee _ _ _ _ _ value _ _ _ other callee =>
      apply eventually_succ
      filter_upwards [callee] with fuel ran
      apply (bind_ok ran).trans
      cases value with
      | callable function identity => exact absurd rfl (other function identity)
      | nil | bool | number | string => rfl
  | argumentsFail _ _ callee arguments =>
      apply eventually_succ
      filter_upwards [callee, arguments] with fuel found failed
      exact (bind_ok found).trans (bind_error failed)
  | argumentCount _ _ count callee arguments =>
      apply eventually_succ
      filter_upwards [callee, arguments] with fuel found values
      apply (bind_ok found).trans
      apply (bind_ok values).trans
      rw [if_neg count]
      rfl
  | native _ _ count callee arguments =>
      apply eventually_succ
      filter_upwards [callee, arguments] with fuel found values
      apply (bind_ok found).trans
      apply (bind_ok values).trans
      rw [if_pos count]
      exact ofExcept_apply _ _ _
  | closure _ _ count _ callee arguments body =>
      apply eventually_succ
      filter_upwards [callee, arguments, body] with fuel found values ran
      apply (bind_ok found).trans
      apply (bind_ok values).trans
      rw [if_pos count]
      exact ran
  | expressions _ _ first rest =>
      apply eventually_succ
      filter_upwards [first, rest] with fuel value values
      exact (bind_ok value).trans (bind_give _ values)
  | call opened bound _ body =>
      apply eventually_succ
      filter_upwards [body] with fuel ran
      apply (bind_ok opened).trans
      exact (bind_ok bound).trans (bind_give _ ran)
  | expression _ echoed value =>
      apply eventually_succ
      filter_upwards [value] with fuel ran
      exact (bind_ok ran).trans (bind_ok echoed)
  | @conditionFails scope condition success failure _ _ _ _ _ first =>
      apply eventually_succ
      filter_upwards [first] with fuel failed
      cases failure <;> exact bind_error failed
  | @success scope condition success failure _ _ _ _ _ _ _ _ truthy _ first second =>
      apply eventually_succ
      filter_upwards [first, second] with fuel value ran
      cases failure <;>
      · apply (bind_ok value).trans
        rw [if_pos truthy]
        exact ran
  | failure _ falsy _ first second =>
      apply eventually_succ
      filter_upwards [first, second] with fuel value ran
      apply (bind_ok value).trans
      rw [if_neg (Bool.eq_false_iff.1 falsy)]
      exact ran
  | noFailure _ falsy first =>
      apply eventually_succ
      filter_upwards [first] with fuel value
      apply (bind_ok value).trans
      rw [if_neg (Bool.eq_false_iff.1 falsy)]
      rfl
  | func made bound =>
      apply eventually_succ
      exact .of_forall fun _ => (bind_ok made).trans (bind_ok bound)
  | letFails _ first =>
      apply eventually_succ
      filter_upwards [first] with fuel failed
      exact (congrFun (execute_let _ _ _ _) _).trans (bind_error failed)
  | let_ _ bound first =>
      apply eventually_succ
      filter_upwards [first] with fuel value
      apply (congrFun (execute_let _ _ _ _) _).trans
      exact (bind_ok value).trans (bind_ok bound)
  | @return_ _ line _ _ _ _ _ _ value =>
      apply eventually_succ
      filter_upwards [value] with fuel ran
      exact (congrFun (execute_return _ _ line _) _).trans (bind_give _ ran)
  | block opened _ body =>
      apply eventually_succ
      filter_upwards [body] with fuel ran
      exact (bind_ok opened).trans ran
  | statementsReturn _ first =>
      apply eventually_succ
      filter_upwards [first] with fuel ran
      exact bind_ok ran
  | statements _ _ first rest =>
      apply eventually_succ
      filter_upwards [first, rest] with fuel ran others
      exact (bind_ok ran).trans others
  | loopEnds _ falsy first =>
      apply eventually_succ
      filter_upwards [first] with fuel value
      apply (bind_ok value).trans
      rw [if_neg (Bool.eq_false_iff.1 falsy)]
      rfl
  | loopFails _ truthy _ first second =>
      apply eventually_succ
      filter_upwards [first, second] with fuel value failed
      apply (bind_ok value).trans
      rw [if_pos truthy]
      exact bind_error failed
  | loopReturns _ truthy _ first second =>
      apply eventually_succ
      filter_upwards [first, second] with fuel value ran
      apply (bind_ok value).trans
      rw [if_pos truthy]
      exact bind_ok ran
  | loopGoesOn _ truthy _ _ first second rest =>
      apply eventually_succ
      filter_upwards [first, second, rest] with fuel value ran again
      apply (bind_ok value).trans
      rw [if_pos truthy]
      exact (bind_ok ran).trans again

end Complete

/-- The evaluator ends exactly as the rules say. -/
theorem ends_iff_runs {α : Type} {task : Task α} {machine after : Machine}
    {result : Except RuntimeError α} :
    Ends (fun fuel => task.run fuel) machine result after ↔
      ∃ events, Runs task machine result events after := by
  constructor
  · rintro ⟨fuel, ends⟩
    exact accounts fuel task ends
  · rintro ⟨events, runs⟩
    exact runs.eventually.exists

namespace Machine

/-- The statements of a script run one after the other in the global scope, with these errors and
these events. -/
inductive Recounts : Machine → List Statement → List RuntimeError → List Event → Machine → Prop
  | nil {machine} : Recounts machine [] [] [] machine
  | cons {machine tree trees result events middle errors further after} :
      Runs (.execute globals tree) machine result events middle →
      Recounts middle trees errors further after →
      Recounts machine (tree :: trees) (failure result ++ errors) (events ++ further) after

/-- A script ends exactly as the rules say. -/
theorem interprets_iff_recounts {machine after : Machine} {trees : List Statement}
    {errors : List RuntimeError} :
    machine.Interprets trees errors after ↔
      ∃ events, machine.Recounts trees errors events after := by
  constructor
  · rintro ⟨fuel, ends⟩
    induction trees generalizing machine errors with
    | nil =>
        cases ends
        exact ⟨[], .nil⟩
    | cons tree trees inductionHypothesis =>
        obtain ⟨result, middle, others, ran, rest, rfl⟩ := interpret_cons_eq_some.1 ends
        obtain ⟨events, runs⟩ := accounts fuel (.execute globals tree) ran
        obtain ⟨further, recounts⟩ := inductionHypothesis rest
        exact ⟨_, .cons runs recounts⟩
  · rintro ⟨events, recounts⟩
    induction recounts with
    | nil => exact ⟨0, rfl⟩
    | cons runs _ inductionHypothesis =>
        obtain ⟨fuel, rest⟩ := inductionHypothesis
        obtain ⟨more, ran, enough⟩ :=
          (runs.eventually.and (Filter.eventually_ge_atTop fuel)).exists
        exact ⟨more, interpret_cons_eq_some.2 ⟨_, _, _, ran, interpret_steady enough rest, rfl⟩⟩

end Machine

end Offside
