/-
This file runs scripts with continuations, where a return jumps out of its call, and compares this
with the evaluator, where a return is a signal.
-/

import Offside.Proofs.Evaluation.Ends

namespace Offside

namespace Jump

open Run

variable {α : Type}

mutual

/-- What comes next gets the value of the expression. -/
def evaluate : Nat → Nat → Expression → (Value → Run α) → Run α
  | 0, _, _, _ => exhausted
  | fuel + 1, scope, expression, next =>
    match expression with
    | .constant value _ => next value.value
    | .reference name => do next (← get scope name)
    | .group inner => evaluate fuel scope inner next
    | .unary operator operand line =>
      evaluate fuel scope operand fun value => do
      next (← ofExcept line (operator.apply value))
    | .binary operator left right line =>
      evaluate fuel scope left fun first =>
      evaluate fuel scope right fun second => do
      next (← ofExcept line (operator.apply first second))
    | .logic operator left right _ =>
      evaluate fuel scope left fun first =>
      if operator.decides first.isTruthy then next (.bool first.isTruthy)
      else evaluate fuel scope right fun second => next (.bool second.isTruthy)
    | .assign name value =>
      evaluate fuel scope value fun result => do
      assign scope name result
      next result
    | .call callee arguments line =>
      evaluate fuel scope callee fun
      | .callable function _ =>
        evaluateAll fuel scope arguments fun values =>
        if values.length = function.arity then
          match function with
          | .native native => do next (← callNative line native values)
          | .closure closure => call fuel closure values next
        else fail line (.invalidArgumentCount function.arity values.length)
      | value => fail line (.invalidCallee value)
termination_by structural fuel => fuel

def evaluateAll : Nat → Nat → List Expression → (List Value → Run α) → Run α
  | 0, _, _, _ => exhausted
  | _ + 1, _, [], next => next []
  | fuel + 1, scope, expression :: rest, next =>
    evaluate fuel scope expression fun value =>
    evaluateAll fuel scope rest fun values => next (value :: values)
termination_by structural fuel => fuel

/-- A body goes on after its call in two ways, by its end and by a return. -/
def call : Nat → Closure → List Value → (Value → Run α) → Run α
  | 0, _, _, _ => exhausted
  | fuel + 1, closure, arguments, next => do
    let scope ← newScope closure.scope
    bindParameters scope closure.parameters arguments
    executeAll fuel scope .nil closure.body next next
termination_by structural fuel => fuel

/-- What comes next gets the value of the statement. A return leaves that out and goes to the exit
of its call. -/
def execute : Nat → Nat → Statement → (Value → Run α) → (Value → Run α) → Run α
  | 0, _, _, _, _ => exhausted
  | fuel + 1, scope, statement, next, exit =>
    match statement with
    | .expression expression =>
      evaluate fuel scope expression fun value => do
      echo value
      next value
    | .if_ condition success failure =>
      evaluate fuel scope condition fun value =>
      if value.isTruthy then execute fuel scope success next exit
      else match failure with
        | some other => execute fuel scope other next exit
        | none => next .nil
    | .while_ condition body => loop fuel scope condition body next exit
    | .func name parameters body => do
      let value ← newFunction (.closure ⟨name, parameters, body, scope⟩)
      declare scope name.text value
      next .nil
    | .let_ name (some initial) =>
      evaluate fuel scope initial fun value => do
      declare scope name.text value
      next .nil
    | .let_ name none => do
      declare scope name.text .nil
      next .nil
    | .return_ _ (some value) => evaluate fuel scope value exit
    | .return_ _ none => exit .nil
    | .block statements => do
      let inner ← newScope scope
      executeAll fuel inner .nil statements next exit
termination_by structural fuel => fuel

def executeAll : Nat → Nat → Value → List Statement → (Value → Run α) → (Value → Run α) → Run α
  | 0, _, _, _, _, _ => exhausted
  | _ + 1, _, last, [], next, _ => next last
  | fuel + 1, scope, _, statement :: rest, next, exit =>
    execute fuel scope statement (fun value => executeAll fuel scope value rest next exit) exit
termination_by structural fuel => fuel

def loop : Nat → Nat → Expression → Statement → (Value → Run α) → (Value → Run α) → Run α
  | 0, _, _, _, _, _ => exhausted
  | fuel + 1, scope, condition, body, next, exit =>
    evaluate fuel scope condition fun value =>
    if value.isTruthy then
      execute fuel scope body (fun _ => loop fuel scope condition body next exit) exit
    else next .nil
termination_by structural fuel => fuel

end

end Jump

open Run

/-- A signal chooses how to go on. -/
def Signal.goOn {α : Type} (next exit : Value → Run α) : Signal → Run α
  | ran value => next value
  | returned value => exit value

/-- To go on from a run is to run with what comes next. -/
structure Jump.Agrees (fuel : Nat) : Prop where
  evaluate {α : Type} (scope : Nat) (expression : Expression) (next : Value → Run α) :
    Jump.evaluate fuel scope expression next = Offside.evaluate fuel scope expression >>= next
  evaluateAll {α : Type} (scope : Nat) (expressions : List Expression)
    (next : List Value → Run α) :
    Jump.evaluateAll fuel scope expressions next =
      Offside.evaluateAll fuel scope expressions >>= next
  call {α : Type} (closure : Closure) (arguments : List Value) (next : Value → Run α) :
    Jump.call fuel closure arguments next = Offside.call fuel closure arguments >>= next
  execute {α : Type} (scope : Nat) (statement : Statement) (next exit : Value → Run α) :
    Jump.execute fuel scope statement next exit =
      Offside.execute fuel scope statement >>= Signal.goOn next exit
  executeAll {α : Type} (scope : Nat) (last : Value) (statements : List Statement)
    (next exit : Value → Run α) :
    Jump.executeAll fuel scope last statements next exit =
      Offside.executeAll fuel scope last statements >>= Signal.goOn next exit
  loop {α : Type} (scope : Nat) (condition : Expression) (body : Statement)
    (next exit : Value → Run α) :
    Jump.loop fuel scope condition body next exit =
      Offside.loop fuel scope condition body >>= Signal.goOn next exit

namespace Jump

section Step

variable {α : Type} {fuel scope : Nat}

/-- To evaluate an expression and jump is to evaluate it and go on. -/
theorem evaluate_agrees (agrees : Agrees fuel) (expression : Expression) (next : Value → Run α) :
    evaluate (fuel + 1) scope expression next =
      Offside.evaluate (fuel + 1) scope expression >>= next := by
  cases expression with
  | constant value line => rw [evaluate, Offside.evaluate, pure_bind]
  | reference name => rw [evaluate, Offside.evaluate]
  | group inner => rw [evaluate, Offside.evaluate, agrees.evaluate]
  | unary operator operand line =>
      rw [evaluate, Offside.evaluate, agrees.evaluate, bind_assoc]
  | binary operator left right line =>
      rw [evaluate, Offside.evaluate, agrees.evaluate, bind_assoc]
      congr 1
      funext first
      rw [agrees.evaluate, bind_assoc]
  | logic operator left right line =>
      rw [evaluate, Offside.evaluate, agrees.evaluate, bind_assoc]
      congr 1
      funext first
      split
      · rw [pure_bind]
      · rw [agrees.evaluate, bind_assoc]
        simp only [pure_bind]
  | assign name value =>
      rw [evaluate, Offside.evaluate, agrees.evaluate, bind_assoc]
      simp only [bind_assoc, pure_bind]
  | call callee arguments line =>
      rw [evaluate, Offside.evaluate, agrees.evaluate, bind_assoc]
      congr 1
      funext found
      cases found with
      | callable function identity =>
          dsimp only
          rw [agrees.evaluateAll, bind_assoc]
          congr 1
          funext values
          split
          · cases function with
            | native native => rfl
            | closure closure => exact agrees.call closure values next
          · rfl
      | nil | bool | number | string => rfl

/-- To evaluate arguments and jump is to evaluate them and go on. -/
theorem evaluateAll_agrees (agrees : Agrees fuel) (expressions : List Expression)
    (next : List Value → Run α) :
    evaluateAll (fuel + 1) scope expressions next =
      Offside.evaluateAll (fuel + 1) scope expressions >>= next := by
  cases expressions with
  | nil => rw [evaluateAll, Offside.evaluateAll, pure_bind]
  | cons expression rest =>
      rw [evaluateAll, Offside.evaluateAll, agrees.evaluate, bind_assoc]
      congr 1
      funext value
      rw [agrees.evaluateAll, bind_assoc]
      simp only [pure_bind]

/-- Both ways out of a body lead to where its call goes on. -/
theorem call_agrees (agrees : Agrees fuel) (closure : Closure) (arguments : List Value)
    (next : Value → Run α) :
    call (fuel + 1) closure arguments next =
      Offside.call (fuel + 1) closure arguments >>= next := by
  have out : Signal.goOn next next = fun signal => next signal.value := by
    funext signal
    cases signal <;> rfl
  rw [call, Offside.call]
  simp only [agrees.executeAll, out, bind_assoc, pure_bind]

/-- To jump after a statement is to go on by its signal. -/
theorem execute_agrees (agrees : Agrees fuel) (statement : Statement)
    (next exit : Value → Run α) :
    execute (fuel + 1) scope statement next exit =
      Offside.execute (fuel + 1) scope statement >>= Signal.goOn next exit := by
  cases statement with
  | expression expression =>
      rw [execute, Offside.execute, agrees.evaluate]
      simp only [bind_assoc, pure_bind, Signal.goOn]
  | if_ condition success failure =>
      cases failure with
      | none =>
          rw [execute, Offside.execute, agrees.evaluate, bind_assoc]
          congr 1
          funext value
          split
          · exact agrees.execute scope success next exit
          · rw [pure_bind, Signal.goOn]
      | some other =>
          rw [execute, Offside.execute, agrees.evaluate, bind_assoc]
          congr 1
          funext value
          split
          · exact agrees.execute scope success next exit
          · exact agrees.execute scope other next exit
  | while_ condition body => exact agrees.loop scope condition body next exit
  | func name parameters body =>
      rw [execute, Offside.execute]
      simp only [bind_assoc, pure_bind, Signal.goOn]
  | let_ name initial =>
      cases initial with
      | none =>
          rw [execute, Offside.execute]
          simp only [bind_assoc, pure_bind, Signal.goOn]
      | some initial =>
          rw [execute, Offside.execute, agrees.evaluate]
          simp only [bind_assoc, pure_bind, Signal.goOn]
  | return_ line value =>
      cases value with
      | none =>
          rw [execute, Offside.execute]
          simp only [pure_bind, Signal.goOn]
      | some value =>
          rw [execute, Offside.execute, agrees.evaluate]
          simp only [bind_assoc, pure_bind, Signal.goOn]
  | block statements =>
      rw [execute, Offside.execute, bind_assoc]
      simp only [agrees.executeAll]

/-- To jump after a list of statements is to go on by its signal. -/
theorem executeAll_agrees (agrees : Agrees fuel) (last : Value) (statements : List Statement)
    (next exit : Value → Run α) :
    executeAll (fuel + 1) scope last statements next exit =
      Offside.executeAll (fuel + 1) scope last statements >>= Signal.goOn next exit := by
  cases statements with
  | nil => rw [executeAll, Offside.executeAll, pure_bind, Signal.goOn]
  | cons statement rest =>
      rw [executeAll, Offside.executeAll, agrees.execute, bind_assoc]
      congr 1
      funext signal
      cases signal with
      | ran value => exact agrees.executeAll scope value rest next exit
      | returned value => rfl

/-- To jump after a loop is to go on by its signal. -/
theorem loop_agrees (agrees : Agrees fuel) (condition : Expression) (body : Statement)
    (next exit : Value → Run α) :
    loop (fuel + 1) scope condition body next exit =
      Offside.loop (fuel + 1) scope condition body >>= Signal.goOn next exit := by
  rw [loop, Offside.loop, agrees.evaluate, bind_assoc]
  congr 1
  funext value
  split
  · rw [agrees.execute, bind_assoc]
    congr 1
    funext signal
    cases signal with
    | ran value => exact agrees.loop scope condition body next exit
    | returned value => rfl
  · rfl

end Step

/-- The two ways to run agree for every amount of fuel. -/
theorem agrees (fuel : Nat) : Agrees fuel := by
  induction fuel with
  | zero => constructor <;> intros <;> rfl
  | succ fuel inductionHypothesis =>
      constructor <;> intros
      case evaluate => exact evaluate_agrees inductionHypothesis _ _
      case evaluateAll => exact evaluateAll_agrees inductionHypothesis _ _
      case call => exact call_agrees inductionHypothesis _ _ _
      case execute => exact execute_agrees inductionHypothesis _ _ _
      case executeAll => exact executeAll_agrees inductionHypothesis _ _ _ _
      case loop => exact loop_agrees inductionHypothesis _ _ _ _

end Jump

/-- A return is a jump out of its call. A call ends with continuations exactly as it ends with
signals, and what comes after an expression, with all the calls in it, gets its value in both. A
statement that returns goes to the exit of its call, whatever would come next. -/
theorem return_jumps (α : Type) :
    (∀ closure arguments machine result after,
      Ends (fun fuel => call fuel closure arguments) machine result after ↔
        Ends (fun fuel => Jump.call fuel closure arguments pure) machine result after) ∧
    (∀ fuel scope expression (next : Value → Run α),
      Jump.evaluate fuel scope expression next = evaluate fuel scope expression >>= next) ∧
    (∀ fuel scope statement (next exit : Value → Run α),
      Jump.execute fuel scope statement next exit =
        execute fuel scope statement >>= Signal.goOn next exit) ∧
    ∀ fuel scope statement machine value after (exit : Value → Run α),
      execute fuel scope statement machine = .ok (.returned value) after →
        ∀ next, Jump.execute fuel scope statement next exit machine = exit value after := by
  refine ⟨?_, ?_, ?_, ?_⟩
  · intro closure arguments machine result after
    have same : (fun fuel => Jump.call fuel closure arguments pure) =
        fun fuel => call fuel closure arguments := by
      funext fuel
      rw [(Jump.agrees fuel).call, bind_pure]
    rw [same]
  · intro fuel scope expression next
    exact (Jump.agrees fuel).evaluate scope expression next
  · intro fuel scope statement next exit
    exact (Jump.agrees fuel).execute scope statement next exit
  · intro fuel scope statement machine value after exit returned next
    rw [(Jump.agrees fuel).execute]
    change EStateM.bind _ _ machine = _
    rw [EStateM.bind, returned]
    rfl

/-- The return stands in a branch in a block in a loop, and only errors come after it. -/
theorem return_jumps_loop :
    let machine : Machine := ⟨Store.empty.newRoot.2, #[], false, .ticking 0, 0⟩
    let fails (line : Nat) : Statement := .expression (.unary .negate (.constant .nil line) line)
    let leaves : Statement := .return_ 3 (some (.constant (.string "a") 3))
    let loop : Statement := .while_ (.constant (.bool true) 2)
      (.block [.if_ (.constant (.bool true) 3) leaves none, fails 4])
    let closure : Closure := ⟨⟨"f", 1⟩, [], [loop, fails 5], 0⟩
    (∃ after, Ends (fun fuel => call fuel closure []) machine (.ok (.string "a")) after ∧
      Ends (fun fuel => Jump.call fuel closure [] pure) machine (.ok (.string "a")) after) ∧
    ∃ after, ∀ next, Jump.execute 9 0 loop next pure machine = .ok (.string "a") after := by
  intro machine fails leaves loop closure
  have ends : Ends (fun fuel => call fuel closure []) machine (.ok (.string "a")) _ := ⟨9, rfl⟩
  have returned : execute 9 0 loop machine = .ok (.returned (.string "a")) _ := rfl
  obtain ⟨calls, -, -, returns⟩ := return_jumps Value
  exact ⟨⟨_, ends, (calls closure [] machine _ _).1 ends⟩, _,
    returns 9 0 loop machine _ _ pure returned⟩

end Offside
