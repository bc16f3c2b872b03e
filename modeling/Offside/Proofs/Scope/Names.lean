/-
This file says which names a run can add to which scopes.
-/

import Offside.Proofs.Evaluation.Ends
import Mathlib.Data.Set.Basic

namespace Offside

namespace Store

/-- These names are bound in this very scope. -/
def names (store : Store) (scope : Nat) : Set String := {name | store.bindsLocally scope name}

/-- A declaration adds its name to its scope and nothing else. -/
theorem mem_names_declare (store : Store) (scope other : Nat) (name text : String) (value : Value) :
    text ∈ (store.declare scope name value).names other ↔
      text ∈ store.names other ∨ scope = other ∧ name = text ∧ other < store.scopes.size := by
  simp only [names, bindsLocally, Set.mem_ofPred_eq, local?_declare]
  split
  · next here => simp [here]
  · next elsewhere => simp [elsewhere]

/-- A new scope adds no name. -/
@[simp]
theorem names_newScope (store : Store) (parent other : Nat) :
    (store.newScope parent).2.names other = store.names other := by
  simp [names, bindsLocally]

/-- No scope of the first store loses a name, and only one of them may get new ones. -/
structure Grows (before : Store) (scope : Nat) (new : List String) (after : Store) : Prop where
  size : before.scopes.size ≤ after.scopes.size
  kept : ∀ other, before.names other ⊆ after.names other
  added : ∀ other < before.scopes.size, ∀ name ∈ after.names other,
    name ∈ before.names other ∨ other = scope ∧ name ∈ new

theorem Grows.refl (store : Store) (scope : Nat) (new : List String) :
    store.Grows scope new store :=
  ⟨le_rfl, fun _ => subset_rfl, fun _ _ _ bound => .inl bound⟩

/-- A declaration that is allowed keeps the names growing. -/
theorem Grows.declare {before after : Store} {scope found : Nat} {new : List String} {name : String}
    (value : Value) (grows : before.Grows scope new after)
    (allowed : found < before.scopes.size → name ∈ after.names found ∨ found = scope ∧ name ∈ new) :
    before.Grows scope new (after.declare found name value) where
  size := by
    rw [size_declare]
    exact grows.size
  kept other text bound := by
    rw [mem_names_declare]
    exact .inl (grows.kept other bound)
  added other inside text bound := by
    rw [mem_names_declare] at bound
    rcases bound with bound | ⟨rfl, rfl, -⟩
    · exact grows.added other inside text bound
    · rcases allowed inside with bound | new
      · exact grows.added found inside name bound
      · exact .inr new

/-- A run in a scope may declare these names there, and any name in a scope that is new. -/
def growth (before : Store) (scope : Nat) (new : List String) : ScopeInvariant where
  holds found name := before.scopes.size ≤ found ∨ found = scope ∧ name ∈ new
  kept := before.Grows scope new
  declare value grows holds := by
    apply grows.declare value
    intro inside
    rcases holds with outside | here
    · omega
    · exact .inr here
  rebind value grows bound := grows.declare value fun _ => .inl bound
  newScope parent grows := by
    refine ⟨?_, ?_, ?_⟩
    · rw [size_newScope]
      exact Nat.le_succ_of_le grows.size
    · intro other
      rw [names_newScope]
      exact grows.kept other
    · intro other inside name bound
      rw [names_newScope] at bound
      exact grows.added other inside name bound
  inside grows _ := .inl grows.size
  newIdentity grows := ⟨grows.size, grows.kept, grows.added⟩

end Store

open Run

section Names

variable {machine after : Machine} {scope : Nat}

/-- An expression adds no name to the scopes that are there. -/
theorem grows_of_evaluate {expression : Expression} {result : Except RuntimeError Value}
    (ends : Ends (fun fuel => evaluate fuel scope expression) machine result after) :
    machine.store.Grows scope [] after.store :=
  (machine.store.growth scope []).kept_of_evaluate ends (.refl _ _ _)

/-- A statement adds only the names that it declares, in its own scope. -/
theorem grows_of_execute {statement : Statement} {result : Except RuntimeError Signal}
    (ends : Ends (fun fuel => execute fuel scope statement) machine result after) :
    machine.store.Grows scope statement.declared after.store :=
  (machine.store.growth scope statement.declared).kept_of_execute ends
    (fun _ isDeclared => .inr ⟨rfl, isDeclared⟩) (.refl _ _ _)

/-- Where nothing new may be declared, the names stay as they are. -/
theorem Store.Grows.names_eq {before after : Store} {new : List String} {other : Nat}
    (grows : before.Grows scope new after) (inside : other < before.scopes.size)
    (apart : other = scope → new = []) : after.names other = before.names other := by
  apply Set.Subset.antisymm
  · intro name bound
    rcases grows.added other inside name bound with bound | ⟨same, isNew⟩
    · exact bound
    · rw [apart same] at isNew
      cases isNew
  · exact grows.kept other

/-- Declarations do not leave their scope. An expression declares nothing in the scopes that are
there before it. A statement declares its own names, in the scope where it stands, and a block
declares nothing outside it. No scope loses a name. All this holds for a run that an error ends. -/
theorem declarations_stay :
    (∀ expression result, Ends (fun fuel => evaluate fuel scope expression) machine result after →
      ∀ other < machine.store.scopes.size,
        after.store.names other = machine.store.names other) ∧
    (∀ statement result, Ends (fun fuel => execute fuel scope statement) machine result after →
      (∀ other, machine.store.names other ⊆ after.store.names other) ∧
      (∀ other < machine.store.scopes.size, other ≠ scope →
        after.store.names other = machine.store.names other) ∧
      (scope < machine.store.scopes.size →
        after.store.names scope ⊆ machine.store.names scope ∪ {name | name ∈ statement.declared})) ∧
    (∀ statements result,
      Ends (fun fuel => execute fuel scope (.block statements)) machine result after →
      ∀ other < machine.store.scopes.size,
        after.store.names other = machine.store.names other) := by
  refine ⟨?_, ?_, ?_⟩
  · intro expression result ends other inside
    exact (grows_of_evaluate ends).names_eq inside fun _ => rfl
  · intro statement result ends
    have grows := grows_of_execute ends
    refine ⟨grows.kept, ?_, ?_⟩
    · intro other inside apart
      exact grows.names_eq inside fun same => absurd same apart
    · intro inside name bound
      rcases grows.added scope inside name bound with bound | ⟨-, isNew⟩
      · exact .inl bound
      · exact .inr isNew
  · intro statements result ends other inside
    exact (grows_of_execute ends).names_eq inside fun _ => rfl

/-- The block declares a name and then fails, and the global scope still has no names. -/
theorem declarations_stay_failure :
    let machine : Machine := ⟨Store.empty.newRoot.2, #[], false, .ticking 0, 0⟩
    let statements : List Statement :=
      [.let_ ⟨"x", 1⟩ none, .expression (.unary .negate (.constant .nil 2) 2)]
    ∃ after, Ends (fun fuel => execute fuel Machine.globals (.block statements)) machine
        (.error ⟨.nonNumeric .nil, 2⟩) after ∧
      after.store.names Machine.globals = machine.store.names Machine.globals := by
  intro machine statements
  have ends : Ends (fun fuel => execute fuel Machine.globals (.block statements)) machine
      (.error ⟨.nonNumeric .nil, 2⟩) _ := ⟨6, rfl⟩
  exact ⟨_, ends, declarations_stay.2.2 statements _ ends _ Nat.zero_lt_one⟩

end Names

end Offside
