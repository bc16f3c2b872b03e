/-
This file proves in which scope the last clause of a loop with clauses finds its names: where the
condition finds them, but for the names that the body declares outside every block.
-/

import Offside.Grammar.Statement
import Offside.Proofs.Evaluation.Account
import Offside.Proofs.Scope.Names
import Offside.Proofs.Seam.Pieces
import Offside.Session

namespace Offside

open Run

mutual

/-- These names are looked up where the expression is evaluated. -/
def Expression.names : Expression → List String
  | .constant _ _ => []
  | .reference name => [name.text]
  | .group inner => inner.names
  | .unary _ operand _ => operand.names
  | .binary _ left right _ | .logic _ left right _ => left.names ++ right.names
  | .assign name value => name.text :: value.names
  | .call callee arguments _ => callee.names ++ namesAll arguments

def Expression.namesAll : List Expression → List String
  | [] => []
  | expression :: rest => expression.names ++ namesAll rest

end

/-- Two scopes find these names in the same places, in every store that the invariant keeps. -/
structure Interchanges (invariant : ScopeInvariant) (names : List String) (first second : Nat) :
    Prop where
  resolve : ∀ store, invariant.kept store → ∀ name ∈ names,
    store.resolve? name first = store.resolve? name second

namespace Interchanges

variable {invariant : ScopeInvariant} {names : List String} {first second : Nat}

/-- The name has the same value in both scopes. -/
theorem get (interchanges : Interchanges invariant names first second) {machine : Machine}
    (kept : invariant.kept machine.store) {name : Name} (known : name.text ∈ names) :
    Run.get first name machine = Run.get second name machine := by
  rw [get_apply, get_apply, Store.get, Store.get, interchanges.resolve _ kept _ known]

/-- An assignment to the name does the same in both scopes. -/
theorem assign (interchanges : Interchanges invariant names first second) {machine : Machine}
    (kept : invariant.kept machine.store) {name : Name} (known : name.text ∈ names)
    (value : Value) :
    Run.assign first name value machine = Run.assign second name value machine := by
  have same := interchanges.resolve _ kept _ known
  cases resolved : machine.store.resolve? name.text first with
  | none => rw [assign_of_none resolved, assign_of_none (same ▸ resolved)]
  | some found => rw [assign_of_some resolved, assign_of_some (same ▸ resolved)]

end Interchanges

/-- Two runs that start alike go on alike, if what comes next is alike wherever the first part
leads. -/
theorem Run.bind_congr_at {α β : Type} {left right : Run α} {next other : α → Run β}
    {machine : Machine} (start : left machine = right machine)
    (further : ∀ value after, left machine = .ok value after →
      next value after = other value after) :
    (left >>= next) machine = (right >>= other) machine := by
  change EStateM.bind left next machine = EStateM.bind right other machine
  rw [EStateM.bind, EStateM.bind, ← start]
  cases ran : left machine with
  | ok value after => exact further value after ran
  | error error after => rfl

namespace Interchanges

variable {invariant : ScopeInvariant} {names : List String} {first second fuel : Nat}
  {machine : Machine}

/-- With this fuel it does not matter in which of the two scopes an expression is evaluated. -/
structure Agrees (invariant : ScopeInvariant) (names : List String) (first second fuel : Nat) :
    Prop where
  evaluate : ∀ {machine : Machine} {expression : Expression}, invariant.kept machine.store →
    expression.names ⊆ names →
    Offside.evaluate fuel first expression machine = Offside.evaluate fuel second expression machine
  evaluateAll : ∀ {machine : Machine} {expressions : List Expression},
    invariant.kept machine.store → Expression.namesAll expressions ⊆ names →
    Offside.evaluateAll fuel first expressions machine =
      Offside.evaluateAll fuel second expressions machine

/-- Evaluation keeps the invariant of the scopes. -/
theorem Agrees.kept {value : Value} {expression : Expression} {after : Machine} {scope : Nat}
    (kept : invariant.kept machine.store)
    (ran : Offside.evaluate fuel scope expression machine = .ok value after) :
    invariant.kept after.store := by
  have ends : Ends (fun fuel => Offside.evaluate fuel scope expression) machine (.ok value) after :=
    ⟨fuel, ran⟩
  exact invariant.kept_of_evaluate ends kept

/-- With one more unit of fuel the expressions still agree. -/
theorem evaluate_step (interchanges : Interchanges invariant names first second)
    (agrees : Agrees invariant names first second fuel) {expression : Expression}
    (kept : invariant.kept machine.store) (known : expression.names ⊆ names) :
    evaluate (fuel + 1) first expression machine =
      evaluate (fuel + 1) second expression machine := by
  cases expression with
  | constant value line => rfl
  | reference name => exact interchanges.get kept (known (by simp [Expression.names]))
  | group inner => exact agrees.evaluate kept known
  | unary operator operand line =>
      exact bind_congr_at (agrees.evaluate kept known) fun _ _ _ => rfl
  | binary operator left right line =>
      rw [Expression.names, List.append_subset] at known
      apply bind_congr_at (agrees.evaluate kept known.1)
      intro value after ran
      exact bind_congr_at (agrees.evaluate (Agrees.kept kept ran) known.2) fun _ _ _ => rfl
  | logic operator left right line =>
      rw [Expression.names, List.append_subset] at known
      apply bind_congr_at (agrees.evaluate kept known.1)
      intro value after ran
      split
      · rfl
      · exact bind_congr_at (agrees.evaluate (Agrees.kept kept ran) known.2) fun _ _ _ => rfl
  | assign name value =>
      rw [Expression.names, List.cons_subset] at known
      apply bind_congr_at (agrees.evaluate kept known.2)
      intro found after ran
      exact bind_congr_at (interchanges.assign (Agrees.kept kept ran) known.1 found)
        fun _ _ _ => rfl
  | call callee arguments line =>
      rw [Expression.names, List.append_subset] at known
      apply bind_congr_at (agrees.evaluate kept known.1)
      intro found after ran
      cases found with
      | callable function identity =>
          exact bind_congr_at (agrees.evaluateAll (Agrees.kept kept ran) known.2) fun _ _ _ => rfl
      | nil | bool | number | string => rfl

/-- With one more unit of fuel the arguments still agree. -/
theorem evaluateAll_step (agrees : Agrees invariant names first second fuel)
    {expressions : List Expression} (kept : invariant.kept machine.store)
    (known : Expression.namesAll expressions ⊆ names) :
    evaluateAll (fuel + 1) first expressions machine =
      evaluateAll (fuel + 1) second expressions machine := by
  cases expressions with
  | nil => rfl
  | cons expression rest =>
      rw [Expression.namesAll, List.append_subset] at known
      apply bind_congr_at (agrees.evaluate kept known.1)
      intro value after ran
      exact bind_congr_at (agrees.evaluateAll (Agrees.kept kept ran) known.2) fun _ _ _ => rfl

/-- With every fuel it does not matter in which of the two scopes an expression is evaluated. -/
theorem agrees (interchanges : Interchanges invariant names first second) (fuel : Nat) :
    Agrees invariant names first second fuel := by
  induction fuel with
  | zero => exact ⟨fun _ _ => rfl, fun _ _ => rfl⟩
  | succ fuel inductionHypothesis =>
      exact ⟨interchanges.evaluate_step inductionHypothesis, evaluateAll_step inductionHypothesis⟩

end Interchanges

namespace Store

/-- The one scope lies right inside the other and binds none of these names. -/
structure Linked (inner outer : Nat) (free : List String) (store : Store) : Prop where
  outward : outer < inner
  inside : inner < store.scopes.size
  parent : store.parent? inner = some outer
  unbound : ∀ name ∈ free, store.local? inner name = none

/-- A declaration that binds no free name in the inner scope keeps the link. -/
theorem Linked.declare {inner outer scope : Nat} {free : List String} {store : Store}
    {name : String} (linked : store.Linked inner outer free) (value : Value)
    (allowed : scope ≠ inner ∨ name ∉ free) :
    (store.declare scope name value).Linked inner outer free where
  outward := linked.outward
  inside := by
    rw [size_declare]
    exact linked.inside
  parent := by
    rw [parent?_declare]
    exact linked.parent
  unbound text isFree := by
    rw [local?_declare, if_neg]
    · exact linked.unbound text isFree
    · rintro ⟨rfl, rfl, -⟩
      obtain apart | bound := allowed
      · exact apart rfl
      · exact bound isFree

/-- A scope stays where it is, and only a statement that stands in it binds more names there. -/
def link (inner outer : Nat) (free : List String) : ScopeInvariant where
  holds scope name := scope ≠ inner ∨ name ∉ free
  kept := Linked inner outer free
  declare value linked holds := linked.declare value holds
  rebind {store scope name} value linked bound := by
    apply linked.declare value
    by_contra both
    rw [not_or, not_not, not_not] at both
    obtain ⟨rfl, isFree⟩ := both
    rw [linked.unbound name isFree] at bound
    cases bound
  newScope {store} parent linked := by
    refine ⟨linked.outward, ?_, ?_, ?_⟩
    · rw [size_newScope]
      exact Nat.lt_succ_of_lt linked.inside
    · rw [parent?_newScope, if_neg (Nat.ne_of_lt linked.inside)]
      exact linked.parent
    · intro name isFree
      rw [local?_newScope]
      exact linked.unbound name isFree
  inside linked _ := .inl (Nat.ne_of_gt linked.inside)
  newIdentity linked := ⟨linked.outward, linked.inside, linked.parent, linked.unbound⟩

/-- A linked scope finds a name in itself or where the outer one finds it. -/
theorem Linked.resolve? {inner outer : Nat} {free : List String} {store : Store}
    (linked : store.Linked inner outer free) (name : String) :
    store.resolve? name inner =
      if store.bindsLocally inner name then some inner else store.resolve? name outer := by
  rw [resolve?_eq, linked.parent]
  simp only [linked.outward, if_true]
  rfl

/-- A linked scope and the outer one are interchangeable for the free names. -/
theorem Linked.interchanges (inner outer : Nat) (free : List String) :
    Interchanges (link inner outer free) free inner outer where
  resolve store linked name isFree := by
    have unbound : store.bindsLocally inner name = false := by
      rw [bindsLocally, Linked.unbound linked name isFree]
      rfl
    rw [Linked.resolve? linked, unbound]
    rfl

end Store

/-- What comes next runs in the machine that the first part leaves, unless that fails or returns. -/
inductive Run.AndThen (first : Except RuntimeError Signal → Machine → Prop)
    (next : Value → Machine → Except RuntimeError Signal → Machine → Prop) :
    Except RuntimeError Signal → Machine → Prop
  | fails {error after} : first (.error error) after → AndThen first next (.error error) after
  | returns {value after} : first (.ok (.returned value)) after →
      AndThen first next (.ok (.returned value)) after
  | goesOn {value middle result after} : first (.ok (.ran value)) middle →
      next value middle result after → AndThen first next result after

/-- Parts that follow one another may be replaced by what they imply. -/
theorem Run.AndThen.mono {first second : Except RuntimeError Signal → Machine → Prop}
    {next other : Value → Machine → Except RuntimeError Signal → Machine → Prop}
    {result : Except RuntimeError Signal} {after : Machine}
    (parts : AndThen first next result after)
    (start : ∀ result after, first result after → second result after)
    (further : ∀ value middle, first (.ok (.ran value)) middle → next value middle result after →
      other value middle result after) : AndThen second other result after := by
  cases parts with
  | fails failed => exact .fails (start _ _ failed)
  | returns returned => exact .returns (start _ _ returned)
  | goesOn ran later => exact .goesOn (start _ _ ran) (further _ _ ran later)

section Sequences

variable {scope : Nat} {last : Value} {statement : Statement} {machine after : Machine}
  {result : Except RuntimeError Signal}

/-- A block runs its statements in a new scope. -/
theorem ends_block {statements : List Statement} :
    Ends (fun fuel => execute fuel scope (.block statements)) machine result after ↔
      ∃ inner inside, newScope scope machine = .ok inner inside ∧
        Ends (fun fuel => executeAll fuel inner .nil statements) inside result after := by
  constructor
  · rintro ⟨fuel, ends⟩
    cases fuel with
    | zero => exact (of_exhausted ends).elim
    | succ fuel => exact ⟨_, _, rfl, fuel, ends⟩
  · rintro ⟨inner, inside, opened, fuel, ends⟩
    exact ⟨fuel + 1, (bind_ok opened).trans ends⟩

/-- No statements end where they start. -/
theorem ends_nil :
    Ends (fun fuel => executeAll fuel scope last []) machine result after ↔
      result = .ok (.ran last) ∧ after = machine := by
  constructor
  · rintro ⟨fuel, ends⟩
    cases fuel with
    | zero => exact (of_exhausted ends).elim
    | succ fuel => exact of_pure ends
  · rintro ⟨rfl, rfl⟩
    exact ⟨1, rfl⟩

/-- Statements end as the first one and then the others. -/
theorem ends_cons {rest : List Statement} :
    Ends (fun fuel => executeAll fuel scope last (statement :: rest)) machine result after ↔
      AndThen (Ends (fun fuel => execute fuel scope statement) machine)
        (fun value => Ends fun fuel => executeAll fuel scope value rest) result after := by
  have list := @ends_iff_runs _ (.executeAll scope last (statement :: rest)) machine after result
  have one {result after} := @ends_iff_runs _ (.execute scope statement) machine after result
  constructor
  · rintro ⟨fuel, ends⟩
    cases fuel with
    | zero => exact (of_exhausted ends).elim
    | succ fuel =>
        obtain ⟨error, failed, rfl⟩ | ⟨signal, middle, ran, ends⟩ := of_bind ends
        · exact .fails ⟨fuel, failed⟩
        · cases signal with
          | ran value => exact .goesOn ⟨fuel, ran⟩ ⟨fuel, ends⟩
          | returned value =>
              obtain ⟨rfl, rfl⟩ := of_pure ends
              exact .returns ⟨fuel, ran⟩
  · intro parts
    cases parts with
    | fails failed =>
        obtain ⟨events, runs⟩ := one.1 failed
        exact list.2 ⟨_, .statementsFail runs⟩
    | returns returned =>
        obtain ⟨events, runs⟩ := one.1 returned
        exact list.2 ⟨_, .statementsReturn runs⟩
    | @goesOn value _ _ _ ran others =>
        obtain ⟨events, runs⟩ := one.1 ran
        obtain ⟨further, later⟩ :=
          (@ends_iff_runs _ (.executeAll scope value rest) _ _ _).1 others
        exact list.2 ⟨_, .statements runs later⟩

/-- A single statement in a list ends as it does alone. -/
theorem ends_single :
    Ends (fun fuel => executeAll fuel scope last [statement]) machine result after ↔
      Ends (fun fuel => execute fuel scope statement) machine result after := by
  rw [ends_cons]
  constructor
  · intro parts
    cases parts with
    | fails failed => exact failed
    | returns returned => exact returned
    | goesOn ran others =>
        obtain ⟨rfl, rfl⟩ := ends_nil.1 others
        exact ran
  · intro ends
    rcases result with error | value | value
    · exact .fails ends
    · exact .goesOn ends (ends_nil.2 ⟨rfl, rfl⟩)
    · exact .returns ends

end Sequences

namespace ForLoop

/-- The last clause of a loop, if there is one, as statements. -/
def clause (increment : Option Expression) : List Statement :=
  (increment.map Statement.expression).toList

def clauseNames (increment : Option Expression) : List String :=
  (increment.map Expression.names).getD []

/-- The last clause runs in the scope of the condition, unless the body has declared one of its
names in the scope of the round. -/
def clauseScope (scope inner : Nat) (increment : Option Expression) (store : Store) : Nat :=
  if (clauseNames increment).any (store.bindsLocally inner) then inner else scope

variable (scope : Nat) (condition : Expression) (increment : Option Expression) (body : Statement)

/-- A round runs the body in a new scope and then the last clause. -/
def Round (machine : Machine) (result : Except RuntimeError Signal) (after : Machine) : Prop :=
  ∃ inner inside, newScope scope machine = .ok inner inside ∧
    AndThen (Ends (fun fuel => execute fuel inner body) inside)
      (fun value last => Ends (fun fuel =>
        executeAll fuel (clauseScope scope inner increment last.store) value (clause increment))
          last) result after

/-- Rounds follow one another while the condition holds. -/
inductive Rounds : Machine → Except RuntimeError Signal → Machine → Prop
  | conditionFails {machine error after} :
      Ends (fun fuel => evaluate fuel scope condition) machine (.error error) after →
      Rounds machine (.error error) after
  | stops {machine value after} :
      Ends (fun fuel => evaluate fuel scope condition) machine (.ok value) after →
      value.isTruthy = false → Rounds machine (.ok (.ran .nil)) after
  | fails {machine value middle error after} :
      Ends (fun fuel => evaluate fuel scope condition) machine (.ok value) middle →
      value.isTruthy = true → Round scope increment body middle (.error error) after →
      Rounds machine (.error error) after
  | returns {machine value middle found after} :
      Ends (fun fuel => evaluate fuel scope condition) machine (.ok value) middle →
      value.isTruthy = true → Round scope increment body middle (.ok (.returned found)) after →
      Rounds machine (.ok (.returned found)) after
  | goesOn {machine value middle found next result after} :
      Ends (fun fuel => evaluate fuel scope condition) machine (.ok value) middle →
      value.isTruthy = true → Round scope increment body middle (.ok (.ran found)) next →
      Rounds next result after → Rounds machine result after

/-- The first clause runs once, in a scope of its own that all rounds share. -/
def Loops (initializer : Option Statement) (machine : Machine)
    (result : Except RuntimeError Signal) (after : Machine) : Prop :=
  ∃ inner inside, newScope scope machine = .ok inner inside ∧
    AndThen (Ends (fun fuel => executeAll fuel inner .nil initializer.toList) inside)
      (fun _ => Rounds inner condition increment body) result after

end ForLoop

namespace ForLoop

variable {scope inner : Nat} {condition : Expression} {increment : Option Expression}
  {body : Statement} {machine inside last after : Machine} {result : Except RuntimeError Signal}

/-- A new scope is the next one and changes nothing but the store. -/
theorem of_newScope (opened : newScope scope machine = .ok inner inside) :
    inner = machine.store.scopes.size ∧ inside.store = (machine.store.newScope scope).2 := by
  cases opened
  exact ⟨rfl, rfl⟩

/-- A new scope lies right inside the scope that opens it, and it is empty. -/
theorem linked_newScope (old : scope < machine.store.scopes.size)
    (opened : newScope scope machine = .ok inner inside) :
    inside.store.Linked inner scope [] ∧ inside.store.names inner = ∅ := by
  obtain ⟨rfl, store⟩ := of_newScope opened
  rw [store]
  refine ⟨⟨old, ?_, ?_, nofun⟩, ?_⟩
  · rw [Store.size_newScope]
    exact Nat.lt_succ_self _
  · rw [Store.parent?_newScope, if_pos rfl]
  · ext name
    simp [Store.names, Store.bindsLocally, Store.local?_of_outside machine.store (Nat.le_refl _)]

/-- The body of a round keeps its scope linked. -/
theorem linked_body (linked : inside.store.Linked inner scope [])
    (ends : Ends (fun fuel => execute fuel inner body) inside result last) :
    last.store.Linked inner scope [] :=
  (Store.link inner scope []).kept_of_execute ends (fun _ _ => .inr List.not_mem_nil) linked

/-- Only the names that the body declares outside every block are bound in the scope of a round. -/
theorem names_body (linked : inside.store.Linked inner scope [])
    (empty : inside.store.names inner = ∅)
    (ends : Ends (fun fuel => execute fuel inner body) inside result last) :
    ∀ name ∈ last.store.names inner, name ∈ body.declared := by
  intro name bound
  obtain old | ⟨-, new⟩ := (grows_of_execute ends).added inner linked.inside name bound
  · rw [empty] at old
    exact absurd old (Set.notMem_empty name)
  · exact new

theorem executeAll_nil_eq (fuel first second : Nat) (value : Value) :
    executeAll fuel first value [] = executeAll fuel second value [] := by
  cases fuel <;> rfl

/-- Where the scope of the round binds none of its names, the last clause runs as in the scope of
the condition. -/
theorem clause_eq (linked : last.store.Linked inner scope (clauseNames increment)) (fuel : Nat)
    (value : Value) :
    executeAll fuel inner value (clause increment) last =
      executeAll fuel scope value (clause increment) last := by
  cases increment with
  | none => exact congrFun (executeAll_nil_eq fuel inner scope value) last
  | some expression =>
      have agrees := (Store.Linked.interchanges inner scope expression.names).agrees
      have statement (fuel : Nat) : execute fuel inner (.expression expression) last =
          execute fuel scope (.expression expression) last := by
        cases fuel with
        | zero => rfl
        | succ fuel =>
            exact bind_congr_at ((agrees fuel).evaluate linked (List.Subset.refl _))
              fun _ _ _ => rfl
      cases fuel with
      | zero => rfl
      | succ fuel =>
          apply bind_congr_at (statement fuel)
          intro signal after ran
          cases signal with
          | ran found => exact congrFun (executeAll_nil_eq fuel inner scope found) after
          | returned found => rfl

/-- The last clause ends alike in the scope of the round and in its own. -/
theorem clause_iff (linked : last.store.Linked inner scope []) (value : Value) :
    Ends (fun fuel => executeAll fuel inner value (clause increment)) last result after ↔
      Ends (fun fuel => executeAll fuel (clauseScope scope inner increment last.store) value
        (clause increment)) last result after := by
  unfold clauseScope
  split
  · rfl
  · next unbound =>
      have free : last.store.Linked inner scope (clauseNames increment) := by
        refine ⟨linked.outward, linked.inside, linked.parent, ?_⟩
        intro name known
        have absent : ¬last.store.bindsLocally inner name = true :=
          fun bound => unbound (List.any_eq_true.2 ⟨name, known, bound⟩)
        simpa [Store.bindsLocally] using absent
      unfold Ends
      simp only [clause_eq free]

/-- A round of the loop runs the last clause as in the scope that it belongs to. -/
theorem round_iff (old : scope < machine.store.scopes.size) :
    Ends (fun fuel => execute fuel scope (.block (body :: clause increment))) machine result after ↔
      Round scope increment body machine result after := by
  rw [ends_block, Round]
  constructor
  · rintro ⟨inner, inside, opened, ends⟩
    have linked := (linked_newScope old opened).1
    refine ⟨inner, inside, opened, (ends_cons.1 ends).mono (fun _ _ => id) ?_⟩
    intro value last ran further
    exact (clause_iff (linked_body linked ran) value).1 further
  · rintro ⟨inner, inside, opened, parts⟩
    have linked := (linked_newScope old opened).1
    refine ⟨inner, inside, opened, ends_cons.2 (parts.mono (fun _ _ => id) ?_)⟩
    intro value last ran further
    exact (clause_iff (linked_body linked ran) value).2 further

/-- An expression leaves the scope where it is. -/
theorem old_of_evaluate {value : Except RuntimeError Value}
    (old : scope < machine.store.scopes.size)
    (ends : Ends (fun fuel => evaluate fuel scope condition) machine value after) :
    scope < after.store.scopes.size :=
  Nat.lt_of_lt_of_le old (grows_of_evaluate ends).size

/-- A statement leaves the scope where it is. -/
theorem old_of_execute {statement : Statement} {place : Nat}
    (old : scope < machine.store.scopes.size)
    (ends : Ends (fun fuel => execute fuel place statement) machine result after) :
    scope < after.store.scopes.size :=
  Nat.lt_of_lt_of_le old (grows_of_execute ends).size

/-- The rounds of the loop are those of the rules. -/
theorem rounds_of_loop {fuel : Nat} (old : scope < machine.store.scopes.size)
    (ends : loop fuel scope condition (.block (body :: clause increment)) machine =
      finished result after) :
    Rounds scope condition increment body machine result after := by
  induction fuel generalizing machine with
  | zero => exact (of_exhausted ends).elim
  | succ fuel inductionHypothesis =>
      obtain ⟨error, failed, rfl⟩ | ⟨value, middle, evaluated, ends⟩ := of_bind ends
      · exact .conditionFails ⟨fuel, failed⟩
      have found : Ends (fun fuel => evaluate fuel scope condition) machine (.ok value) middle :=
        ⟨fuel, evaluated⟩
      have here := old_of_evaluate old found
      cases truthy : value.isTruthy with
      | false =>
          rw [truthy] at ends
          obtain ⟨rfl, rfl⟩ := of_pure ends
          exact .stops found truthy
      | true =>
          rw [truthy] at ends
          obtain ⟨error, failed, rfl⟩ | ⟨signal, next, ran, ends⟩ := of_bind ends
          · exact .fails found truthy ((round_iff here).1 ⟨fuel, failed⟩)
          have round := (round_iff here).1 ⟨fuel, ran⟩
          cases signal with
          | ran value =>
              have further := old_of_execute here ⟨fuel, ran⟩
              exact .goesOn found truthy round (inductionHypothesis further ends)
          | returned value =>
              obtain ⟨rfl, rfl⟩ := of_pure ends
              exact .returns found truthy round

/-- A round leaves the scope where it is. -/
theorem old_of_round {found : Except RuntimeError Signal} (old : scope < machine.store.scopes.size)
    (round : Round scope increment body machine found after) : scope < after.store.scopes.size :=
  old_of_execute old ((round_iff old).2 round)

/-- The loop goes through all rounds that the rules give. -/
theorem loop_of_rounds (rounds : Rounds scope condition increment body machine result after)
    (old : scope < machine.store.scopes.size) :
    Ends (fun fuel => loop fuel scope condition (.block (body :: clause increment))) machine result
      after := by
  let statement : Statement := .block (body :: clause increment)
  have loops {machine after result} :=
    @ends_iff_runs _ (.loop scope condition statement) machine after result
  have conditions {machine after result} :=
    @ends_iff_runs _ (.evaluate scope condition) machine after result
  have bodies {machine after result} :=
    @ends_iff_runs _ (.execute scope statement) machine after result
  induction rounds with
  | conditionFails failed =>
      obtain ⟨events, runs⟩ := conditions.1 failed
      exact loops.2 ⟨_, .loopConditionFails runs⟩
  | stops found falsy =>
      obtain ⟨events, runs⟩ := conditions.1 found
      exact loops.2 ⟨_, .loopEnds runs falsy⟩
  | fails found truthy round =>
      have here := old_of_evaluate old found
      obtain ⟨events, runs⟩ := conditions.1 found
      obtain ⟨further, ran⟩ := bodies.1 ((round_iff here).2 round)
      exact loops.2 ⟨_, .loopFails runs truthy ran⟩
  | returns found truthy round =>
      have here := old_of_evaluate old found
      obtain ⟨events, runs⟩ := conditions.1 found
      obtain ⟨further, ran⟩ := bodies.1 ((round_iff here).2 round)
      exact loops.2 ⟨_, .loopReturns runs truthy ran⟩
  | goesOn found truthy round _ inductionHypothesis =>
      have here := old_of_evaluate old found
      obtain ⟨events, runs⟩ := conditions.1 found
      obtain ⟨further, ran⟩ := bodies.1 ((round_iff here).2 round)
      obtain ⟨later, others⟩ := loops.1 (inductionHypothesis (old_of_round here round))
      exact loops.2 ⟨_, .loopGoesOn runs truthy ran others⟩

/-- A loop statement ends as its loop does. -/
theorem ends_while {statement : Statement} :
    Ends (fun fuel => execute fuel scope (.while_ condition statement)) machine result after ↔
      Ends (fun fuel => loop fuel scope condition statement) machine result after := by
  constructor
  · rintro ⟨fuel, ends⟩
    cases fuel with
    | zero => exact (of_exhausted ends).elim
    | succ fuel => exact ⟨fuel, ends⟩
  · rintro ⟨fuel, ends⟩
    exact ⟨fuel + 1, ends⟩

/-- The loop that follows the first clause goes through the rounds of the rules. -/
theorem ends_rounds (old : scope < machine.store.scopes.size) (value : Value) :
    Ends (fun fuel => executeAll fuel scope value
        [.while_ condition (.block (body :: clause increment))]) machine result after ↔
      Rounds scope condition increment body machine result after := by
  rw [ends_single, ends_while]
  constructor
  · rintro ⟨fuel, ends⟩
    exact rounds_of_loop old ends
  · intro rounds
    exact loop_of_rounds rounds old

/-- A loop with clauses does what the rules say. -/
theorem loops_iff {initializer : Option Statement} :
    Ends (fun fuel => execute fuel scope (.forLoop initializer condition increment body)) machine
        result after ↔ Loops scope condition increment body initializer machine result after := by
  have opened {inner inside} (opened : newScope scope machine = .ok inner inside) :
      inner < inside.store.scopes.size := by
    obtain ⟨rfl, store⟩ := of_newScope opened
    rw [store, Store.size_newScope]
    exact Nat.lt_succ_self _
  rw [Statement.forLoop, ends_block, Loops]
  refine exists_congr fun inner => exists_congr fun inside => and_congr_right fun new => ?_
  have here := opened new
  cases initializer with
  | none =>
      constructor
      · intro ends
        exact .goesOn (ends_nil.2 ⟨rfl, rfl⟩) ((ends_rounds here .nil).1 ends)
      · intro parts
        cases parts with
        | fails failed => cases (ends_nil.1 failed).1
        | returns returned => cases (ends_nil.1 returned).1
        | goesOn ran rounds =>
            obtain ⟨-, rfl⟩ := ends_nil.1 ran
            exact (ends_rounds here .nil).2 rounds
  | some statement =>
      constructor
      · intro ends
        apply (ends_cons.1 ends).mono (fun _ _ => ends_single.2)
        intro value middle ran further
        exact (ends_rounds (old_of_execute here ran) value).1 further
      · intro parts
        apply ends_cons.2
        apply parts.mono (fun _ _ => ends_single.1)
        intro value middle ran further
        exact (ends_rounds (old_of_execute here (ends_single.1 ran)) value).2 further

/-- After the body of a round, the last clause finds its names where the condition finds them, but
for those that the body has declared in the scope of the round. -/
structure Hygienic (outer inner : Nat) (increment : Option Expression) (body : Statement)
    (machine : Machine) : Prop where
  /-- The body declares a name there only outside every block. -/
  declared : ∀ name, machine.store.bindsLocally inner name = true → name ∈ body.declared
  resolve : ∀ name, machine.store.resolve? name inner =
    if machine.store.bindsLocally inner name then some inner else machine.store.resolve? name outer
  /-- Without such a name, the clause has the same value, writes and fails in the same way and
  leaves the same machine in both scopes. -/
  evaluate : (∀ name ∈ clauseNames increment, machine.store.bindsLocally inner name = false) →
    ∀ expression ∈ increment, ∀ fuel,
      evaluate fuel inner expression machine = evaluate fuel outer expression machine

/-- After the body of a round the last clause is hygienic. -/
theorem hygienic_of_body (old : scope < machine.store.scopes.size)
    (opened : newScope scope machine = .ok inner inside)
    (ends : Ends (fun fuel => execute fuel inner body) inside result last) :
    Hygienic scope inner increment body last := by
  obtain ⟨linked, empty⟩ := linked_newScope old opened
  have kept := linked_body linked ends
  refine ⟨names_body linked empty ends, kept.resolve?, ?_⟩
  rintro unbound expression present fuel
  cases present
  have free : last.store.Linked inner scope expression.names := by
    refine ⟨kept.outward, kept.inside, kept.parent, ?_⟩
    intro name known
    simpa [Store.bindsLocally] using unbound name known
  exact ((Store.Linked.interchanges inner scope expression.names).agrees fuel).evaluate free
    (List.Subset.refl _)

end ForLoop

/-- A loop with clauses evaluates its last clause in the scope of its condition, unless the body has
declared one of the names of the clause in the scope of the round. In every round, each name of the
clause has the binding that the condition finds, or else the body declares it outside every
block. -/
theorem forLoop_hygienic (scope : Nat) (initializer : Option Statement) (condition : Expression)
    (increment : Option Expression) (body : Statement) :
    (∀ machine result after,
      Ends (fun fuel => execute fuel scope (.forLoop initializer condition increment body)) machine
          result after ↔
        ForLoop.Loops scope condition increment body initializer machine result after) ∧
    ∀ outer machine inner inside result last, outer < machine.store.scopes.size →
      newScope outer machine = .ok inner inside →
      Ends (fun fuel => execute fuel inner body) inside result last →
      ForLoop.Hygienic outer inner increment body last := by
  constructor
  · intro machine result after
    exact ForLoop.loops_iff
  · intro outer machine inner inside result last old opened ends
    exact ForLoop.hygienic_of_body old opened ends

/-- The body declares a name of the clause in a block of its own, and the clause does not see it. -/
theorem forLoop_hygienic_block :
    let machine : Machine := ⟨Store.empty.newRoot.2, #[], false, .ticking 0, 0⟩
    let clause : Expression := .reference ⟨"n", 1⟩
    let body : Statement := .block [.let_ ⟨"n", 1⟩ none]
    ∃ inner inside last, Machine.globals < machine.store.scopes.size ∧
      newScope Machine.globals machine = .ok inner inside ∧
      Ends (fun fuel => execute fuel inner body) inside (.ok (.ran .nil)) last ∧
      ∀ fuel, evaluate fuel inner clause last = evaluate fuel Machine.globals clause last := by
  intro machine clause body
  let inside : Machine := { machine with store := (machine.store.newScope Machine.globals).2 }
  have ends : Ends (fun fuel => execute fuel 1 body) inside (.ok (.ran .nil)) _ := ⟨4, rfl⟩
  have hygienic := (forLoop_hygienic 0 none clause (some clause) body).2 Machine.globals machine
    1 inside _ _ Nat.zero_lt_one rfl ends
  refine ⟨1, _, _, Nat.zero_lt_one, rfl, ends, hygienic.evaluate ?_ clause rfl⟩
  intro name _
  rw [Bool.eq_false_iff]
  intro bound
  cases hygienic.declared name bound

/-- This is the output of the machine at the end of a run. -/
def Run.written {α : Type} : EStateM.Result Halt Machine α → String
  | .ok _ after | .error _ after => after.output

/-- The body is a declaration without a block. The clause sees it and writes its value, where the
scope of the condition has another one. -/
theorem forLoop_sees_declaration :
    let source := "let n = \"a\"\nlet go = true\nfor ; go; go = println(n) then let n = \"b\"\n"
    let machine := Machine.start (.ticking 0) false
    let declarations : List Statement :=
      [.let_ ⟨"n", 1⟩ (some (.constant (.string "a") 1)),
        .let_ ⟨"go", 2⟩ (some (.constant (.bool true) 2))]
    let clause : Expression :=
      .assign ⟨"go", 3⟩ (.call (.reference ⟨"println", 3⟩) [.reference ⟨"n", 3⟩] 3)
    let body : Statement := .let_ ⟨"n", 3⟩ (some (.constant (.string "b") 3))
    readScript source = .ok
        (declarations ++ [.forLoop none (.reference ⟨"go", 3⟩) (some clause) body]) ∧
      (machine.run 20 source).map (fun done => done.machine.output) = some "b\n" ∧
      ∃ first outer middle inner inside last,
        executeAll 9 Machine.globals .nil declarations machine = .ok (.ran .nil) first ∧
        newScope Machine.globals first = .ok outer middle ∧
        newScope outer middle = .ok inner inside ∧
        execute 9 inner body inside = .ok (.ran .nil) last ∧
        evaluate 9 inner clause last ≠ evaluate 9 outer clause last := by
  intro source machine declarations clause body
  have read : readScript source = .ok
      (declarations ++ [.forLoop none (.reference ⟨"go", 3⟩) (some clause) body]) := by
    change readScript
      "let n = \"a\"\nlet go = true\nfor ; go; go = println(n) then let n = \"b\"\n" = _
    unfold readScript scan
    rw [Piece.split_eq_splitWithin (Nat.le_refl 69)]
    rfl
  refine ⟨read, ?_, ?_⟩
  · unfold Machine.run
    rw [read]
    decide +kernel
  · refine ⟨_, _, _, _, _, _, rfl, rfl, rfl, rfl, ?_⟩
    intro same
    exact absurd (congrArg Run.written same) (by decide +kernel)

end Offside
