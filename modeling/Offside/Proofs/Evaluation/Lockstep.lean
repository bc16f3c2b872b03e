/-
This file runs a script on two machines at once. What a pair of machines keeps through every
primitive of a run, it keeps through the whole run.
-/

import Offside.Proofs.Lines
import Mathlib.Data.List.Forall2

namespace Offside

namespace Value

/-- A function value that is seen was declared in a scope that is seen. -/
def Seen (sees : Nat → Prop) : Value → Prop
  | callable (.closure function) _ => sees function.scope
  | _ => True

/-- The two values differ only in lines that count as the same. -/
structure Alike (line : Nat → Nat) (sees : Nat → Prop) (left right : Value) : Prop where
  same : left.reline line = right.reline line
  seen : left.Seen sees

end Value

/-- Two results of an operation are alike. -/
def ResultsAlike (line : Nat → Nat) (sees : Nat → Prop) :
    Except Fault Value → Except Fault Value → Prop
  | .ok left, .ok right => Value.Alike line sees left right
  | .error left, .error right => left.reline line = right.reline line
  | _, _ => False

namespace Run

variable {α β γ δ : Type} {line : Nat → Nat} {machines : Machine → Machine → Prop}

/-- If the left run ends then the right run ends too, in the same way, and leaves a pair of machines
again. A left run that has no fuel says nothing about the right one. -/
def Tracks (line : Nat → Nat) (machines : Machine → Machine → Prop) (alike : α → β → Prop)
    (left : Run α) (right : Run β) : Prop :=
  ∀ ⦃first second : Machine⦄, machines first second →
    match left first with
    | .ok value after =>
      ∃ other last, right second = .ok other last ∧ alike value other ∧ machines after last
    | .error (.error error) after =>
      ∃ other last, right second = .error (.error other) last ∧
        error.reline line = other.reline line ∧ machines after last
    | .error .exhausted _ => True

/-- Two runs that only give values that are alike track each other. -/
theorem Tracks.pure {alike : α → β → Prop} {left : α} {right : β} (values : alike left right) :
    Tracks line machines alike (pure left) (pure right) :=
  fun _ second related => ⟨right, second, rfl, values, related⟩

/-- Runs that track each other go on side by side. -/
theorem Tracks.bind {alike : α → β → Prop} {both : γ → δ → Prop} {left : Run α} {right : Run β}
    {next : α → Run γ} {other : β → Run δ} (start : Tracks line machines alike left right)
    (further : ∀ first second, alike first second →
      Tracks line machines both (next first) (other second)) :
    Tracks line machines both (left >>= next) (right >>= other) := by
  intro first second related
  have begun := start related
  change match EStateM.bind left next first with
    | .ok value after => ∃ found last, EStateM.bind right other second = .ok found last ∧
        both value found ∧ machines after last
    | .error (.error error) after => ∃ found last,
        EStateM.bind right other second = .error (.error found) last ∧
          error.reline line = found.reline line ∧ machines after last
    | .error .exhausted _ => True
  unfold EStateM.bind
  cases run : left first with
  | ok value after =>
      rw [run] at begun
      obtain ⟨found, last, same, values, later⟩ := begun
      rw [same]
      exact further value found values later
  | error halt after =>
      rw [run] at begun
      cases halt with
      | exhausted => trivial
      | error error =>
          obtain ⟨found, last, same, errors, later⟩ := begun
          rw [same]
          exact ⟨found, last, rfl, errors, later⟩

/-- A run without fuel is tracked by every run. -/
theorem Tracks.exhausted {alike : α → β → Prop} {right : Run β} :
    Tracks line machines alike exhausted right := fun _ _ _ => trivial

/-- Faults that are alike on lines that count as the same track each other. -/
theorem Tracks.fail {alike : α → β → Prop} {first second : Nat} {left right : Fault}
    (lines : line first = line second) (faults : left.reline line = right.reline line) :
    Tracks line machines alike (Run.fail first left) (Run.fail second right) := by
  intro _ other related
  refine ⟨⟨right, second⟩, other, rfl, ?_, related⟩
  simp [RuntimeError.reline, lines, faults]

/-- Results that are alike on lines that count as the same track each other. -/
theorem Tracks.ofExcept {sees : Nat → Prop} {first second : Nat} {left right : Except Fault Value}
    (lines : line first = line second) (results : ResultsAlike line sees left right) :
    Tracks line machines (Value.Alike line sees) (Run.ofExcept first left)
      (Run.ofExcept second right) := by
  cases left with
  | ok value =>
      cases right with
      | ok other => exact Tracks.pure results
      | error fault => exact results.elim
  | error fault =>
      cases right with
      | ok other => exact results.elim
      | error other => exact Tracks.fail lines results

end Run

section Operators

variable {line : Nat → Nat} {sees : Nat → Prop}

/-- A constant is like itself. -/
theorem Constant.alike (constant : Constant) :
    Value.Alike line sees constant.value constant.value :=
  ⟨rfl, by cases constant <;> trivial⟩

/-- Values that are alike count as true or false together. -/
theorem Value.Alike.isTruthy {left right : Value} (values : Alike line sees left right) :
    left.isTruthy = right.isTruthy := by
  rw [← isTruthy_reline line left, values.same, isTruthy_reline]

/-- Values that are alike are displayed the same. -/
theorem Value.Alike.display {left right : Value} (values : Alike line sees left right) :
    left.display = right.display := by
  rw [← display_reline line left, values.same, display_reline]

/-- Operators give no functions, so what they give is seen. -/
theorem UnaryOperator.seen_of_apply {operator : UnaryOperator} {operand result : Value}
    (applied : operator.apply operand = .ok result) : result.Seen sees := by
  cases operator <;> cases operand <;> cases applied <;> trivial

theorem Value.seen_of_arithmetic {operation : Float → Float → Float} {left right result : Value}
    (applied : arithmetic operation left right = .ok result) : result.Seen sees := by
  unfold arithmetic at applied
  generalize left.operands right = found at applied
  cases found with
  | error fault => cases applied
  | ok operands =>
      cases applied
      trivial

theorem Value.seen_of_comparison {relation : Float → Float → Bool} {left right result : Value}
    (applied : comparison relation left right = .ok result) : result.Seen sees := by
  unfold comparison at applied
  generalize left.operands right = found at applied
  cases found with
  | error fault => cases applied
  | ok operands =>
      cases applied
      trivial

theorem Value.seen_of_divide {left right result : Value}
    (applied : divide left right = .ok result) : result.Seen sees := by
  unfold divide at applied
  generalize left.operands right = found at applied
  rcases found with fault | ⟨x, y⟩
  · cases applied
  · by_cases zero : y == 0
    · simp [bind, Except.bind, zero] at applied
    · simp only [bind, Except.bind, zero] at applied
      cases applied
      trivial

theorem Value.seen_of_add {left right result : Value} (applied : add left right = .ok result) :
    result.Seen sees := by
  cases left with
  | string value =>
      cases applied
      trivial
  | _ => exact seen_of_arithmetic applied

/-- A binary operator never gives a function. -/
theorem BinaryOperator.seen_of_apply {operator : BinaryOperator} {left right result : Value}
    (applied : operator.apply left right = .ok result) : result.Seen sees := by
  cases operator with
  | multiply | subtract => exact Value.seen_of_arithmetic applied
  | divide => exact Value.seen_of_divide applied
  | add => exact Value.seen_of_add applied
  | less | lessEqual | greater | greaterEqual =>
      unfold apply at applied
      exact Value.seen_of_comparison applied
  | equal | notEqual =>
      cases applied
      trivial

/-- Results that differ only in lines are alike when their value is seen. -/
theorem resultsAlike_of_reline {left right : Except Fault Value}
    (same : relineResult line left = relineResult line right)
    (seen : ∀ value, left = .ok value → value.Seen sees) : ResultsAlike line sees left right := by
  cases left <;> cases right <;> simp only [relineResult, reduceCtorEq, Except.ok.injEq,
    Except.error.injEq] at same
  · exact same
  · exact ⟨same, seen _ rfl⟩

/-- A unary operator gives results that are alike for operands that are. -/
theorem UnaryOperator.alike (operator : UnaryOperator) {left right : Value}
    (values : Value.Alike line sees left right) :
    ResultsAlike line sees (operator.apply left) (operator.apply right) := by
  apply resultsAlike_of_reline
  · rw [← apply_reline, ← apply_reline, values.same]
  · exact fun _ applied => operator.seen_of_apply applied

/-- A binary operator gives results that are alike for operands that are. -/
theorem BinaryOperator.alike (operator : BinaryOperator) {left right first second : Value}
    (lefts : Value.Alike line sees left first) (rights : Value.Alike line sees right second) :
    ResultsAlike line sees (operator.apply left right) (operator.apply first second) := by
  apply resultsAlike_of_reline
  · rw [← apply_reline, ← apply_reline, lefts.same, rights.same]
  · exact fun _ applied => operator.seen_of_apply applied

end Operators

@[simp]
theorem Name.text_reline (line : Nat → Nat) (name : Name) :
    (name.reline line).text = name.text := rfl

/-- Names that differ only in lines have the same text. -/
theorem Name.text_of_reline {line : Nat → Nat} {left right : Name}
    (same : left.reline line = right.reline line) : left.text = right.text := by
  rw [← text_reline line left, same, text_reline]

namespace Statement

/-- These names are declared where the statement stands, not in a scope inside it. -/
def declared : Statement → List String
  | .expression _ | .return_ _ _ | .block _ => []
  | .if_ _ success none => success.declared
  | .if_ _ success (some failure) => success.declared ++ failure.declared
  | .while_ _ body => body.declared
  | .func name _ _ | .let_ name _ => [name.text]

end Statement

namespace Signal

/-- Both statements ran to their end or both returned. -/
def Alike (line : Nat → Nat) (sees : Nat → Prop) : Signal → Signal → Prop
  | .ran left, .ran right => Value.Alike line sees left right
  | .returned left, .returned right => Value.Alike line sees left right
  | _, _ => False

/-- Signals that are alike carry values that are alike. -/
theorem Alike.value {line : Nat → Nat} {sees : Nat → Prop} {left right : Signal}
    (signals : Alike line sees left right) : Value.Alike line sees left.value right.value := by
  cases left <;> cases right <;> first | exact signals | exact signals.elim

end Signal

open Run

/-- An expression that is left out stands for nil. -/
def evaluateOptional (fuel scope : Nat) : Option Expression → Run Value
  | some expression => evaluate fuel scope expression
  | none => pure .nil

/-- A declaration binds its name to the initial value, or to nil. -/
theorem execute_let (fuel scope : Nat) (name : Name) (initial : Option Expression) :
    execute (fuel + 1) scope (.let_ name initial) = do
      let value ← evaluateOptional fuel scope initial
      Run.declare scope name.text value
      return .ran .nil := by
  cases initial <;> rfl

/-- A return gives its value, or nil. -/
theorem execute_return (fuel scope line : Nat) (value : Option Expression) :
    execute (fuel + 1) scope (.return_ line value) = do
      let result ← evaluateOptional fuel scope value
      return .returned result := by
  cases value <;> rfl

/-- A pair of machines that go through every primitive of a run side by side. The runs look names up
and open scopes only in scopes that are seen, and they declare names only where these are held. -/
structure Lockstep where
  line : Nat → Nat
  sees : Nat → Prop
  holds : Nat → String → Prop
  machines : Machine → Machine → Prop
  get : ∀ {scope : Nat} {left right : Name}, sees scope → left.reline line = right.reline line →
    Tracks line machines (Value.Alike line sees) (Run.get scope left) (Run.get scope right)
  assign : ∀ {scope : Nat} {left right : Name} {first second : Value}, sees scope →
    left.reline line = right.reline line → Value.Alike line sees first second →
    Tracks line machines (fun _ _ => True) (Run.assign scope left first)
      (Run.assign scope right second)
  declare : ∀ {scope : Nat} {name : String} {first second : Value}, holds scope name →
    Value.Alike line sees first second →
    Tracks line machines (fun _ _ => True) (Run.declare scope name first)
      (Run.declare scope name second)
  newScope : ∀ {parent : Nat}, sees parent →
    Tracks line machines (fun left right => left = right ∧ sees left ∧ ∀ name, holds left name)
      (Run.newScope parent) (Run.newScope parent)
  newFunction : ∀ {left right : Closure}, left.reline line = right.reline line →
    sees left.scope → Tracks line machines (Value.Alike line sees)
      (Run.newFunction (.closure left)) (Run.newFunction (.closure right))
  callNative : ∀ {first second : Nat} {native : Native} {lefts rights : List Value},
    line first = line second → List.Forall₂ (Value.Alike line sees) lefts rights →
    Tracks line machines (Value.Alike line sees) (Run.callNative first native lefts)
      (Run.callNative second native rights)
  echo : ∀ {left right : Value}, Value.Alike line sees left right →
    Tracks line machines (fun _ _ => True) (Run.echo left) (Run.echo right)

namespace Lockstep

variable (pair : Lockstep)

abbrev Alike (left right : Value) : Prop := Value.Alike pair.line pair.sees left right

abbrev Tracks {α β : Type} (alike : α → β → Prop) (left : Run α) (right : Run β) : Prop :=
  Run.Tracks pair.line pair.machines alike left right

/-- All parts of a run with the one fuel are tracked by those with the other. -/
structure Follows (fuel other : Nat) : Prop where
  evaluate : ∀ {scope : Nat} {left right : Expression}, pair.sees scope →
    left.reline pair.line = right.reline pair.line →
    pair.Tracks pair.Alike (evaluate fuel scope left) (evaluate other scope right)
  evaluateAll : ∀ {scope : Nat} {left right : List Expression}, pair.sees scope →
    Expression.relineAll pair.line left = Expression.relineAll pair.line right →
    pair.Tracks (List.Forall₂ pair.Alike) (evaluateAll fuel scope left)
      (evaluateAll other scope right)
  call : ∀ {left right : Closure} {lefts rights : List Value}, pair.sees left.scope →
    left.reline pair.line = right.reline pair.line → List.Forall₂ pair.Alike lefts rights →
    pair.Tracks pair.Alike (call fuel left lefts) (call other right rights)
  execute : ∀ {scope : Nat} {left right : Statement}, pair.sees scope →
    (∀ name ∈ left.declared, pair.holds scope name) →
    left.reline pair.line = right.reline pair.line →
    pair.Tracks (Signal.Alike pair.line pair.sees) (execute fuel scope left)
      (execute other scope right)
  executeAll : ∀ {scope : Nat} {left right : List Statement} {first second : Value},
    pair.sees scope → (∀ statement ∈ left, ∀ name ∈ statement.declared, pair.holds scope name) →
    Statement.relineAll pair.line left = Statement.relineAll pair.line right →
    pair.Alike first second →
    pair.Tracks (Signal.Alike pair.line pair.sees) (executeAll fuel scope first left)
      (executeAll other scope second right)
  loop : ∀ {scope : Nat} {condition condition' : Expression} {body body' : Statement},
    pair.sees scope → (∀ name ∈ body.declared, pair.holds scope name) →
    condition.reline pair.line = condition'.reline pair.line →
    body.reline pair.line = body'.reline pair.line →
    pair.Tracks (Signal.Alike pair.line pair.sees) (loop fuel scope condition body)
      (loop other scope condition' body')

variable {pair} {fuel other : Nat} {scope : Nat}

theorem nil_alike : pair.Alike .nil .nil := ⟨rfl, trivial⟩

/-- Parameters are bound side by side to values that are alike. -/
theorem bindParameters_tracks {lefts rights : List Name} {firsts seconds : List Value}
    (holds : ∀ name, pair.holds scope name)
    (names : lefts.map (Name.reline pair.line) = rights.map (Name.reline pair.line))
    (values : List.Forall₂ pair.Alike firsts seconds) :
    pair.Tracks (fun _ _ => True) (bindParameters scope lefts firsts)
      (bindParameters scope rights seconds) := by
  induction lefts generalizing rights firsts seconds with
  | nil =>
      cases rights with
      | nil => exact Tracks.pure trivial
      | cons => cases names
  | cons left lefts inductionHypothesis =>
      cases rights with
      | nil => cases names
      | cons right rights =>
          rw [List.map_cons, List.map_cons, List.cons.injEq] at names
          have text := Name.text_of_reline names.1
          cases values with
          | nil => exact Tracks.pure trivial
          | cons first others =>
              rw [bindParameters, bindParameters, ← text]
              apply (pair.declare (holds left.text) first).bind
              intro _ _ _
              exact inductionHypothesis names.2 others

/-- The callee comes first, then the arguments, then the body. -/
theorem call_tracks (follows : pair.Follows fuel other) {callee callee' : Expression}
    {arguments arguments' : List Expression} {place place' : Nat} (sees : pair.sees scope)
    (callees : callee.reline pair.line = callee'.reline pair.line)
    (values : Expression.relineAll pair.line arguments = Expression.relineAll pair.line arguments')
    (lines : pair.line place = pair.line place') :
    pair.Tracks pair.Alike (evaluate (fuel + 1) scope (.call callee arguments place))
      (evaluate (other + 1) scope (.call callee' arguments' place')) := by
  unfold evaluate
  apply (follows.evaluate sees callees).bind
  intro found found' functions
  have same := functions.same
  cases found <;> cases found' <;>
    simp only [Value.reline, reduceCtorEq, Value.callable.injEq] at same
  case callable.callable function identity function' _ =>
      obtain ⟨functions', rfl⟩ := same
      apply (follows.evaluateAll sees values).bind
      intro firsts seconds all
      have arity : function.arity = function'.arity := by
        rw [← Callable.arity_reline pair.line function, functions', Callable.arity_reline]
      rw [all.length_eq, arity]
      split
      · cases function <;> cases function' <;> simp only [Callable.reline, reduceCtorEq,
          Callable.native.injEq, Callable.closure.injEq] at functions'
        case native.native =>
            subst functions'
            exact pair.callNative lines all
        case closure.closure => exact follows.call functions.seen functions' all
      · exact Tracks.fail lines rfl
  all_goals exact Tracks.fail lines (congrArg Fault.invalidCallee functions.same)

/-- With one more unit of fuel the expressions still go side by side. -/
theorem evaluate_step (follows : pair.Follows fuel other) {left right : Expression}
    (sees : pair.sees scope) (same : left.reline pair.line = right.reline pair.line) :
    pair.Tracks pair.Alike (evaluate (fuel + 1) scope left) (evaluate (other + 1) scope right) := by
  unfold evaluate
  cases left <;> cases right <;>
    simp only [Expression.reline, reduceCtorEq, Expression.constant.injEq,
      Expression.reference.injEq, Expression.group.injEq, Expression.unary.injEq,
      Expression.binary.injEq, Expression.logic.injEq, Expression.assign.injEq,
      Expression.call.injEq] at same
  case constant.constant =>
      obtain ⟨rfl, -⟩ := same
      exact Tracks.pure (Constant.alike _)
  case reference.reference => exact pair.get sees same
  case group.group => exact follows.evaluate sees same
  case unary.unary =>
      obtain ⟨rfl, operand, lines⟩ := same
      apply (follows.evaluate sees operand).bind
      intro first second values
      exact Tracks.ofExcept lines (UnaryOperator.alike _ values)
  case binary.binary =>
      obtain ⟨rfl, lefts, rights, lines⟩ := same
      apply (follows.evaluate sees lefts).bind
      intro first second firsts
      apply (follows.evaluate sees rights).bind
      intro third fourth seconds
      exact Tracks.ofExcept lines (BinaryOperator.alike _ firsts seconds)
  case logic.logic =>
      obtain ⟨rfl, lefts, rights, -⟩ := same
      apply (follows.evaluate sees lefts).bind
      intro first second firsts
      rw [firsts.isTruthy]
      split
      · exact Tracks.pure ⟨rfl, trivial⟩
      · apply (follows.evaluate sees rights).bind
        intro third fourth seconds
        rw [seconds.isTruthy]
        exact Tracks.pure ⟨rfl, trivial⟩
  case assign.assign =>
      obtain ⟨names, value⟩ := same
      apply (follows.evaluate sees value).bind
      intro first second values
      apply (pair.assign sees names values).bind
      intro _ _ _
      exact Tracks.pure values
  case call.call => exact call_tracks follows sees same.1 same.2.1 same.2.2


/-- With one more unit of fuel the arguments still go side by side. -/
theorem evaluateAll_step (follows : pair.Follows fuel other) {left right : List Expression}
    (sees : pair.sees scope)
    (same : Expression.relineAll pair.line left = Expression.relineAll pair.line right) :
    pair.Tracks (List.Forall₂ pair.Alike) (evaluateAll (fuel + 1) scope left)
      (evaluateAll (other + 1) scope right) := by
  cases left <;> cases right <;>
    simp only [Expression.relineAll, reduceCtorEq, List.cons.injEq] at same
  case nil.nil => exact Tracks.pure .nil
  case cons.cons =>
      apply (follows.evaluate sees same.1).bind
      intro first second values
      apply (follows.evaluateAll sees same.2).bind
      intro firsts seconds others
      exact Tracks.pure (.cons values others)

/-- With one more unit of fuel the calls still go side by side. -/
theorem call_step (follows : pair.Follows fuel other) {left right : Closure}
    {lefts rights : List Value} (sees : pair.sees left.scope)
    (same : left.reline pair.line = right.reline pair.line)
    (values : List.Forall₂ pair.Alike lefts rights) :
    pair.Tracks pair.Alike (call (fuel + 1) left lefts) (call (other + 1) right rights) := by
  obtain ⟨name, parameters, body, outer⟩ := left
  obtain ⟨name', parameters', body', outer'⟩ := right
  simp only [Closure.reline, Closure.mk.injEq] at same
  obtain ⟨-, names, bodies, rfl⟩ := same
  apply (pair.newScope sees).bind
  rintro scope _ ⟨rfl, inside, holds⟩
  apply (bindParameters_tracks holds names values).bind
  intro _ _ _
  apply (follows.executeAll inside (fun _ _ name _ => holds name) bodies nil_alike).bind
  intro first second signals
  exact Tracks.pure signals.value

/-- Expressions that may be left out go side by side. -/
theorem evaluateOptional_tracks (follows : pair.Follows fuel other)
    {left right : Option Expression} (sees : pair.sees scope)
    (same : left.map (Expression.reline pair.line) = right.map (Expression.reline pair.line)) :
    pair.Tracks pair.Alike (evaluateOptional fuel scope left)
      (evaluateOptional other scope right) := by
  cases left <;> cases right <;>
    simp only [Option.map_none, Option.map_some, reduceCtorEq, Option.some.injEq] at same
  case none.none => exact Tracks.pure nil_alike
  case some.some => exact follows.evaluate sees same

/-- With one more unit of fuel the statements still go side by side. -/
theorem execute_step (follows : pair.Follows fuel other) {left right : Statement}
    (sees : pair.sees scope) (holds : ∀ name ∈ left.declared, pair.holds scope name)
    (same : left.reline pair.line = right.reline pair.line) :
    pair.Tracks (Signal.Alike pair.line pair.sees) (execute (fuel + 1) scope left)
      (execute (other + 1) scope right) := by
  cases left <;> cases right <;> simp only [Statement.reline, reduceCtorEq,
    Statement.expression.injEq, Statement.if_.injEq, Statement.while_.injEq, Statement.func.injEq,
    Statement.let_.injEq, Statement.return_.injEq, Statement.block.injEq] at same
  case expression.expression =>
      apply (follows.evaluate sees same).bind
      intro first second values
      apply (pair.echo values).bind
      intro _ _ _
      exact Tracks.pure values
  case if_.if_ success failure _ success' failure' =>
      obtain ⟨conditions, successes, failures⟩ := same
      apply (follows.evaluate sees conditions).bind
      intro first second values
      rw [values.isTruthy]
      cases second.isTruthy with
      | true =>
          apply follows.execute sees _ successes
          intro name isDeclared
          apply holds
          cases failure <;> simp [Statement.declared, isDeclared]
      | false =>
          cases failure <;> cases failure' <;> simp only [Statement.relineFailure, reduceCtorEq,
            Option.some.injEq] at failures
          case none.none => exact Tracks.pure nil_alike
          case some.some =>
              apply follows.execute sees _ failures
              intro name isDeclared
              apply holds
              simp [Statement.declared, isDeclared]
  case while_.while_ => exact follows.loop sees holds same.1 same.2
  case func.func name parameters body name' parameters' body' =>
      obtain ⟨names, all, bodies⟩ := same
      have text := Name.text_of_reline names
      apply (pair.newFunction (by simp [Closure.reline, names, all, bodies]) sees).bind
      intro first second values
      rw [← text]
      apply (pair.declare (holds name.text (by simp [Statement.declared])) values).bind
      intro _ _ _
      exact Tracks.pure nil_alike
  case let_.let_ name initial name' initial' =>
      obtain ⟨names, initials⟩ := same
      have text := Name.text_of_reline names
      rw [execute_let, execute_let, ← text]
      apply (evaluateOptional_tracks follows sees initials).bind
      intro first second values
      apply (pair.declare (holds name.text (by simp [Statement.declared])) values).bind
      intro _ _ _
      exact Tracks.pure nil_alike
  case return_.return_ =>
      rw [execute_return, execute_return]
      apply (evaluateOptional_tracks follows sees same.2).bind
      intro first second values
      exact Tracks.pure values
  case block.block =>
      apply (pair.newScope sees).bind
      rintro inner _ ⟨rfl, inside, all⟩
      exact follows.executeAll inside (fun _ _ name _ => all name) same nil_alike

/-- With one more unit of fuel the lists of statements still go side by side. -/
theorem executeAll_step (follows : pair.Follows fuel other) {left right : List Statement}
    {first second : Value} (sees : pair.sees scope)
    (holds : ∀ statement ∈ left, ∀ name ∈ statement.declared, pair.holds scope name)
    (same : Statement.relineAll pair.line left = Statement.relineAll pair.line right)
    (values : pair.Alike first second) :
    pair.Tracks (Signal.Alike pair.line pair.sees) (executeAll (fuel + 1) scope first left)
      (executeAll (other + 1) scope second right) := by
  cases left <;> cases right <;>
    simp only [Statement.relineAll, reduceCtorEq, List.cons.injEq] at same
  case nil.nil => exact Tracks.pure values
  case cons.cons statement rest _ rest' =>
      rw [List.forall_mem_cons] at holds
      apply (follows.execute sees holds.1 same.1).bind
      intro signal signal' signals
      cases signal <;> cases signal' <;> first | exact signals.elim | skip
      case ran.ran => exact follows.executeAll sees holds.2 same.2 signals
      case returned.returned => exact Tracks.pure signals

/-- With one more unit of fuel the loops still go side by side. -/
theorem loop_step (follows : pair.Follows fuel other) {condition condition' : Expression}
    {body body' : Statement} (sees : pair.sees scope)
    (holds : ∀ name ∈ body.declared, pair.holds scope name)
    (conditions : condition.reline pair.line = condition'.reline pair.line)
    (bodies : body.reline pair.line = body'.reline pair.line) :
    pair.Tracks (Signal.Alike pair.line pair.sees) (loop (fuel + 1) scope condition body)
      (loop (other + 1) scope condition' body') := by
  apply (follows.evaluate sees conditions).bind
  intro first second values
  rw [values.isTruthy]
  cases second.isTruthy with
  | false => exact Tracks.pure nil_alike
  | true =>
      apply (follows.execute sees holds bodies).bind
      intro signal signal' signals
      cases signal <;> cases signal' <;> first | exact signals.elim | skip
      case ran.ran => exact follows.loop sees holds conditions bodies
      case returned.returned => exact Tracks.pure signals

/-- Every run is tracked by the runs that have no less fuel. -/
theorem follows (fuel other : Nat) (enough : fuel ≤ other) : pair.Follows fuel other := by
  induction fuel generalizing other with
  | zero => constructor <;> intros <;> exact Tracks.exhausted
  | succ fuel inductionHypothesis =>
      obtain ⟨other, rfl⟩ : ∃ smaller, other = smaller + 1 := ⟨other - 1, by omega⟩
      have follows := inductionHypothesis other (by omega)
      exact ⟨evaluate_step follows, evaluateAll_step follows, call_step follows,
        execute_step follows, executeAll_step follows, loop_step follows⟩

end Lockstep

end Offside
