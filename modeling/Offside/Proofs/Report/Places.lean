/-
This file proves that a run blames only lines of its own statements. Lines that these statements do
not have may be changed, and the errors stay as they are.
-/

import Offside.Proofs.Evaluation.Account
import Offside.Proofs.Lines

namespace Offside

open Run

variable {line : Nat → Nat}

/-- No line of the values in the store is changed. -/
def Store.Kept (line : Nat → Nat) (store : Store) : Prop :=
  ∀ scope name value, store.local? scope name = some value → value.reline line = value

/-- The result is good, or no line of its error is changed. -/
def Blamed {α : Type} (line : Nat → Nat) (good : α → Prop) : Except RuntimeError α → Prop
  | .ok value => good value
  | .error error => error.reline line = error

namespace Task

/-- No line of what the task is about is changed. -/
def Kept {α : Type} (line : Nat → Nat) : Task α → Prop
  | evaluate _ expression => expression.reline line = expression
  | evaluateOptional _ expression => expression.map (Expression.reline line) = expression
  | evaluateAll _ expressions => Expression.relineAll line expressions = expressions
  | call closure arguments =>
      closure.reline line = closure ∧ ∀ value ∈ arguments, value.reline line = value
  | execute _ statement => statement.reline line = statement
  | executeAll _ last statements =>
      last.reline line = last ∧ Statement.relineAll line statements = statements
  | loop _ condition body => condition.reline line = condition ∧ body.reline line = body

/-- No line of what the task gives is changed. -/
def GivesKept {α : Type} (line : Nat → Nat) : Task α → α → Prop
  | evaluate _ _ | evaluateOptional _ _ | call _ _ => fun value => value.reline line = value
  | evaluateAll _ _ => fun values => ∀ value ∈ values, value.reline line = value
  | execute _ _ | executeAll _ _ _ | loop _ _ _ => fun signal =>
      signal.value.reline line = signal.value

end Task

namespace Blamed

variable {α β : Type} {good : α → Prop} {result : Except RuntimeError α} {place : Nat}

/-- A mapped result is good when the map gives good values. -/
theorem map {fair : β → Prop} {give : α → β} (blamed : Blamed line good result)
    (given : ∀ value, good value → fair (give value)) : Blamed line fair (result.map give) := by
  cases result with
  | ok value => exact given value blamed
  | error error => exact blamed

/-- The blamed result of an operation keeps its lines. -/
theorem blame {given : Except Fault Value} (stays : line place = place)
    (kept : relineResult line given = given) :
    Blamed line (fun value => value.reline line = value) (Offside.blame place given) := by
  cases given with
  | ok value => exact Except.ok.inj kept
  | error fault =>
      have same : fault.reline line = fault := Except.error.inj kept
      change (⟨fault.reline line, line place⟩ : RuntimeError) = ⟨fault, place⟩
      rw [same, stays]

/-- An operation on good values keeps its lines. -/
theorem bind_blame {give : α → Except Fault Value} (stays : line place = place)
    (blamed : Blamed line good result)
    (kept : ∀ value, good value → relineResult line (give value) = give value) :
    Blamed line (fun value => value.reline line = value)
      (result.bind fun value => Offside.blame place (give value)) := by
  cases result with
  | ok value => exact blame stays (kept value blamed)
  | error error => exact blamed

end Blamed

section Primitives

variable {machine after : Machine} {scope : Nat} {name : String} {value : Value}

/-- A unary operator keeps the lines of its operand. -/
theorem UnaryOperator.apply_kept (operator : UnaryOperator) (kept : value.reline line = value) :
    relineResult line (operator.apply value) = operator.apply value := by
  rw [← apply_reline, kept]

/-- A binary operator keeps the lines of its operands. -/
theorem BinaryOperator.apply_kept (operator : BinaryOperator) {left right : Value}
    (first : left.reline line = left) (second : right.reline line = right) :
    relineResult line (operator.apply left right) = operator.apply left right := by
  rw [← apply_reline, first, second]

/-- A native keeps the lines of its arguments. -/
theorem Machine.callNative_kept (machine : Machine) (native : Native) {arguments : List Value}
    (kept : ∀ value ∈ arguments, value.reline line = value) :
    relineResult line (machine.callNative native arguments).1 =
      (machine.callNative native arguments).1 := by
  cases native with
  | clock | print | println => rfl
  | double =>
      match arguments with
      | [] => rfl
      | .number value :: _ => rfl
      | .nil :: _ | .bool _ :: _ | .string _ :: _ => rfl
      | .callable function identity :: _ =>
          have same := kept (.callable function identity) List.mem_cons_self
          exact congrArg (fun operand => Except.error (Fault.nonNumeric operand)) same

/-- The value of a name keeps the lines of the store. -/
theorem Store.Kept.get {store : Store} (stored : store.Kept line) :
    relineResult line (store.get scope name) = store.get scope name := by
  unfold Store.get
  cases looked : (store.resolve? name scope).bind fun found => store.local? found name with
  | none => rfl
  | some value =>
      obtain ⟨found, -, bound⟩ := Option.bind_eq_some_iff.1 looked
      exact congrArg Except.ok (stored found name value bound)

/-- A declaration of a value that keeps its lines keeps those of the store. -/
theorem Store.Kept.declare {store : Store} (stored : store.Kept line)
    (kept : value.reline line = value) : (store.declare scope name value).Kept line := by
  intro other text found bound
  rw [local?_declare] at bound
  split at bound
  · cases bound
    exact kept
  · exact stored other text found bound

/-- A new scope keeps the lines of the store. -/
theorem Store.Kept.newScope {store : Store} {parent : Nat} (stored : store.Kept line) :
    (store.newScope parent).2.Kept line := by
  intro other text found bound
  rw [local?_newScope] at bound
  exact stored other text found bound

/-- An assignment of a value that keeps its lines keeps those of the store. -/
theorem kept_of_assign {name : Name} {result : Except RuntimeError Unit}
    (stored : machine.store.Kept line) (stays : line name.line = name.line)
    (kept : value.reline line = value)
    (assigned : Run.assign scope name value machine = finished result after) :
    after.store.Kept line ∧ Blamed line (fun _ => True) result := by
  cases resolved : machine.store.resolve? name.text scope with
  | none =>
      rw [assign_of_none resolved] at assigned
      obtain ⟨rfl, rfl⟩ := of_fail assigned
      refine ⟨stored, ?_⟩
      change (⟨_, line name.line⟩ : RuntimeError) = ⟨_, name.line⟩
      rw [stays]
      rfl
  | some found =>
      rw [assign_of_some resolved] at assigned
      have given : finished (.ok ()) _ = finished result after := assigned
      obtain ⟨rfl, rfl⟩ := finished_inj given
      exact ⟨stored.declare kept, trivial⟩

/-- Parameters that are bound to values that keep their lines keep those of the store. -/
theorem kept_of_bindParameters {names : List Name} {values : List Value}
    (stored : machine.store.Kept line) (kept : ∀ value ∈ values, value.reline line = value)
    (bound : bindParameters scope names values machine = .ok () after) :
    after.store.Kept line := by
  induction names generalizing values machine with
  | nil =>
      cases bound
      exact stored
  | cons name names inductionHypothesis =>
      cases values with
      | nil =>
          cases bound
          exact stored
      | cons value values =>
          rw [List.forall_mem_cons] at kept
          have first : (machine.store.declare scope name.text value).Kept line :=
            stored.declare kept.1
          exact inductionHypothesis first kept.2 bound

end Primitives

/-- A run of statements and values whose lines are not changed gives such values, and such errors. -/
theorem Runs.kept {α : Type} {task : Task α} {machine after : Machine}
    {result : Except RuntimeError α} {events : List Event}
    (runs : Runs task machine result events after) (stored : machine.store.Kept line)
    (kept : task.Kept line) : after.store.Kept line ∧ Blamed line (task.GivesKept line) result := by
  -- The lines of a tree are those of its parts, so each part is kept with the whole.
  induction runs with
  | @constant _ value =>
      refine ⟨stored, ?_⟩
      cases value <;> rfl
  | @reference _ name =>
      have stays : line name.line = name.line :=
        congrArg Name.line (Expression.reference.inj kept)
      exact ⟨stored, .blame stays stored.get⟩
  | group _ inner => exact inner stored (Expression.group.inj kept)
  | unary _ operand =>
      obtain ⟨-, kept, stays⟩ := Expression.unary.inj kept
      obtain ⟨later, blamed⟩ := operand stored kept
      exact ⟨later, blamed.bind_blame stays fun _ => UnaryOperator.apply_kept _⟩
  | binaryFails _ first => exact first stored (Expression.binary.inj kept).2.1
  | binary _ _ left right =>
      obtain ⟨-, one, two, stays⟩ := Expression.binary.inj kept
      obtain ⟨later, found⟩ := left stored one
      obtain ⟨last, blamed⟩ := right later two
      exact ⟨last, blamed.bind_blame stays fun _ also => BinaryOperator.apply_kept _ found also⟩
  | logicFails _ first => exact first stored (Expression.logic.inj kept).2.1
  | logicDecided _ _ left => exact ⟨(left stored (Expression.logic.inj kept).2.1).1, rfl⟩
  | logic _ _ _ left right =>
      obtain ⟨-, one, two, -⟩ := Expression.logic.inj kept
      obtain ⟨last, blamed⟩ := right (left stored one).1 two
      exact ⟨last, blamed.map fun _ _ => rfl⟩
  | assignFails _ first => exact first stored (Expression.assign.inj kept).2
  | assign _ assigned value =>
      obtain ⟨named, kept⟩ := Expression.assign.inj kept
      obtain ⟨later, found⟩ := value stored kept
      obtain ⟨last, blamed⟩ := kept_of_assign later (congrArg Name.line named) found assigned
      exact ⟨last, blamed.map fun _ _ => found⟩
  | calleeFails _ first => exact first stored (Expression.call.inj kept).1
  | invalidCallee _ _ callee =>
      obtain ⟨one, -, stays⟩ := Expression.call.inj kept
      obtain ⟨later, found⟩ := callee stored one
      refine ⟨later, ?_⟩
      change RuntimeError.mk (.invalidCallee _) (line _) = ⟨.invalidCallee _, _⟩
      rw [found, stays]
  | argumentsFail _ _ callee arguments =>
      obtain ⟨one, two, -⟩ := Expression.call.inj kept
      exact arguments (callee stored one).1 two
  | argumentCount _ _ _ callee arguments =>
      obtain ⟨one, two, stays⟩ := Expression.call.inj kept
      refine ⟨(arguments (callee stored one).1 two).1, ?_⟩
      change RuntimeError.mk _ (line _) = ⟨_, _⟩
      rw [stays]
      rfl
  | native _ _ _ callee arguments =>
      obtain ⟨one, two, stays⟩ := Expression.call.inj kept
      obtain ⟨last, found⟩ := arguments (callee stored one).1 two
      rw [Machine.callNative_store]
      exact ⟨last, .blame stays (Machine.callNative_kept _ _ found)⟩
  | closure _ _ _ _ callee arguments body =>
      obtain ⟨one, two, -⟩ := Expression.call.inj kept
      obtain ⟨later, function⟩ := callee stored one
      obtain ⟨last, found⟩ := arguments later two
      exact body last ⟨Callable.closure.inj (Value.callable.inj function).1, found⟩
  | omitted => exact ⟨stored, rfl⟩
  | given _ expression => exact expression stored (Option.some.inj kept)
  | noExpressions => exact ⟨stored, fun _ absent => absurd absent List.not_mem_nil⟩
  | expressionsFail _ first => exact first stored (List.cons.inj kept).1
  | expressions _ _ expression rest =>
      obtain ⟨one, two⟩ := List.cons.inj kept
      obtain ⟨later, found⟩ := expression stored one
      obtain ⟨last, blamed⟩ := rest later two
      exact ⟨last, blamed.map fun _ others => List.forall_mem_cons.2 ⟨found, others⟩⟩
  | call opened bound _ body =>
      obtain ⟨closure, arguments⟩ := kept
      cases opened
      have inside := kept_of_bindParameters stored.newScope arguments bound
      obtain ⟨last, blamed⟩ := body inside ⟨rfl, congrArg Closure.body closure⟩
      exact ⟨last, blamed.map fun _ given => given⟩
  | expressionFails _ first => exact first stored (Statement.expression.inj kept)
  | expression _ echoed expression =>
      obtain ⟨later, found⟩ := expression stored (Statement.expression.inj kept)
      rw [store_of_echo echoed]
      exact ⟨later, found⟩
  | conditionFails _ first => exact first stored (Statement.if_.inj kept).1
  | success _ _ _ condition branch =>
      obtain ⟨one, two, -⟩ := Statement.if_.inj kept
      exact branch (condition stored one).1 two
  | failure _ _ _ condition branch =>
      obtain ⟨one, -, two⟩ := Statement.if_.inj kept
      exact branch (condition stored one).1 (Option.some.inj two)
  | noFailure _ _ condition => exact ⟨(condition stored (Statement.if_.inj kept).1).1, rfl⟩
  | while_ _ loop => exact loop stored (Statement.while_.inj kept)
  | func made bound =>
      obtain ⟨named, parameters, body⟩ := Statement.func.inj kept
      cases made
      cases bound
      refine ⟨Store.Kept.declare stored ?_, rfl⟩
      change Value.callable (.closure ⟨_, _, _, _⟩) _ = .callable (.closure ⟨_, _, _, _⟩) _
      rw [named, parameters, body]
  | letFails _ first => exact first stored (Statement.let_.inj kept).2
  | let_ _ bound initial =>
      obtain ⟨later, found⟩ := initial stored (Statement.let_.inj kept).2
      cases bound
      exact ⟨later.declare found, rfl⟩
  | return_ _ value =>
      obtain ⟨later, blamed⟩ := value stored (Statement.return_.inj kept).2
      exact ⟨later, blamed.map fun _ given => given⟩
  | block opened _ body =>
      cases opened
      exact body stored.newScope ⟨rfl, Statement.block.inj kept⟩
  | noStatements => exact ⟨stored, kept.1⟩
  | statementsFail _ first | statementsReturn _ first =>
      exact first stored (List.cons.inj kept.2).1
  | statements _ _ statement rest =>
      obtain ⟨one, two⟩ := List.cons.inj kept.2
      obtain ⟨later, found⟩ := statement stored one
      exact rest later ⟨found, two⟩
  | loopConditionFails _ first => exact first stored kept.1
  | loopEnds _ _ condition => exact ⟨(condition stored kept.1).1, rfl⟩
  | loopFails _ _ _ condition body | loopReturns _ _ _ condition body =>
      exact body (condition stored kept.1).1 kept.2
  | loopGoesOn _ _ _ _ condition body rest =>
      exact rest (body (condition stored kept.1).1 kept.2).1 kept

namespace Machine

/-- The statements of a script keep the lines of their errors. -/
theorem Recounts.kept {machine after : Machine} {trees : List Statement}
    {errors : List RuntimeError} {events : List Event}
    (recounts : machine.Recounts trees errors events after) (stored : machine.store.Kept line)
    (kept : Statement.relineAll line trees = trees) :
    ∀ error ∈ errors, error.reline line = error := by
  induction recounts with
  | nil => exact fun error absent => absurd absent List.not_mem_nil
  | @cons _ _ _ result _ _ _ _ _ runs _ inductionHypothesis =>
      obtain ⟨one, two⟩ := List.cons.inj kept
      obtain ⟨later, blamed⟩ := runs.kept stored one
      intro error member
      obtain member | member := List.mem_append.1 member
      · cases result with
        | ok signal => cases member
        | error found =>
            rw [List.mem_singleton.1 member]
            exact blamed
      · exact inductionHypothesis later two error member

/-- A native that is registered keeps the lines of the store. -/
theorem register_kept {machine : Machine} (stored : machine.store.Kept line) (native : Native) :
    (machine.register native).store.Kept line := Store.Kept.declare stored rfl

/-- A new machine holds natives only, which have no lines. -/
theorem start_kept (line : Nat → Nat) (clock : Clock) (echoes : Bool) :
    (start clock echoes).store.Kept line := by
  have all (natives : List Native) {machine : Machine} (stored : machine.store.Kept line) :
      (natives.foldl register machine).store.Kept line := by
    induction natives generalizing machine with
    | nil => exact stored
    | cons native rest inductionHypothesis =>
        exact inductionHypothesis (register_kept stored native)
  apply all
  intro scope name value bound
  rw [Store.local?_newRoot] at bound
  cases bound

end Machine

end Offside
