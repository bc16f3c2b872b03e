/-
This file says what each operation on a store changes, scope by scope and name by name.
-/

import Offside.Store

namespace Offside.Store

def parent? (store : Store) (scope : Nat) : Option Nat := store.scopes[scope]?.bind Scope.parent

variable (store : Store)

/-- Only one name of one scope changes, and only if the scope is there. -/
theorem local?_declare (scope other : Nat) (name text : String) (value : Value) :
    (store.declare scope name value).local? other text =
      if scope = other ∧ name = text ∧ other < store.scopes.size then some value
      else store.local? other text := by
  simp only [local?, declare, Array.getElem?_modify]
  by_cases same : scope = other
  · subst same
    cases found : store.scopes[scope]? with
    | none =>
        have outside := Array.getElem?_eq_none_iff.mp found
        simp [Nat.not_lt.mpr outside]
    | some content =>
        have inside : scope < store.scopes.size := (Array.getElem?_eq_some_iff.mp found).1
        simp [Scope.bind, Std.TreeMap.getElem?_insert, inside]
  · simp [same]

/-- A declaration changes no parent. -/
@[simp]
theorem parent?_declare (scope other : Nat) (name : String) (value : Value) :
    (store.declare scope name value).parent? other = store.parent? other := by
  simp only [parent?, declare, Array.getElem?_modify]
  split
  · cases store.scopes[other]? <;> rfl
  · rfl

@[simp]
theorem size_declare (scope : Nat) (name : String) (value : Value) :
    (store.declare scope name value).scopes.size = store.scopes.size := by
  simp [declare]

/-- A declaration leaves the other scopes as they are. -/
theorem getElem?_declare {scope other : Nat} (name : String) (value : Value)
    (apart : other ≠ scope) : (store.declare scope name value).scopes[other]? =
      store.scopes[other]? := by
  simp [declare, Array.getElem?_modify, apart.symm]

/-- A new scope leaves the other scopes as they are. -/
theorem getElem?_newScope {parent other : Nat} (old : other ≠ store.scopes.size) :
    (store.newScope parent).2.scopes[other]? = store.scopes[other]? := by
  simp [newScope, addScope, Array.getElem?_push, old]

/-- A new scope is empty, so no name gets another value. -/
@[simp]
theorem local?_newScope (parent other : Nat) (name : String) :
    (store.newScope parent).2.local? other name = store.local? other name := by
  by_cases old : other = store.scopes.size
  · simp [local?, newScope, addScope, old]
  · simp only [local?, getElem?_newScope store old]

/-- The parent of a new scope is the one in which it was opened. -/
theorem parent?_newScope (parent other : Nat) :
    (store.newScope parent).2.parent? other =
      if other = store.scopes.size then some parent else store.parent? other := by
  by_cases old : other = store.scopes.size
  · simp [parent?, newScope, addScope, old]
  · simp only [parent?, getElem?_newScope store old, if_neg old]

@[simp]
theorem size_newScope (parent : Nat) :
    (store.newScope parent).2.scopes.size = store.scopes.size + 1 := by
  simp [newScope, addScope]

/-- A scope that is not there binds nothing. -/
theorem local?_of_outside {scope : Nat} (outside : store.scopes.size ≤ scope) (name : String) :
    store.local? scope name = none := by
  simp [local?, outside]

/-- A first scope binds nothing. -/
theorem local?_newRoot (scope : Nat) (name : String) :
    Store.empty.newRoot.2.local? scope name = none := by
  cases scope with
  | zero => simp [local?, newRoot, addScope, Store.empty]
  | succ scope => exact local?_of_outside _ (Nat.succ_le_succ (Nat.zero_le scope)) name

/-- A scope that is not there has no parent. -/
theorem parent?_of_outside {scope : Nat} (outside : store.scopes.size ≤ scope) :
    store.parent? scope = none := by
  simp [parent?, outside]

/-- One step of the walk to the scope that binds the name. -/
theorem resolve?_eq (name : String) (scope : Nat) :
    store.resolve? name scope =
      if (store.local? scope name).isSome then some scope
      else match store.parent? scope with
        | none => none
        | some parent => if parent < scope then store.resolve? name parent else none := by
  rw [resolve?, local?, parent?]
  cases store.scopes[scope]? with
  | none => rfl
  | some found =>
      have binds : found.binds name = (found.bindings[name]?).isSome := by
        rw [Scope.binds, Std.TreeMap.contains_eq_isSome_getElem?]
      exact ite_congr (congrArg (· = true) binds) (fun _ => rfl) (fun _ => rfl)

/-- The walk ends at a scope that binds the name. -/
theorem isSome_local?_of_resolve? {name : String} {scope found : Nat}
    (resolved : store.resolve? name scope = some found) :
    (store.local? found name).isSome := by
  induction scope using Nat.strongRecOn with
  | ind scope inductionHypothesis =>
      rw [resolve?_eq] at resolved
      split at resolved
      · next here =>
          cases resolved
          exact here
      · split at resolved
        · cases resolved
        · next parent _ =>
            split at resolved
            · next before => exact inductionHypothesis parent before resolved
            · cases resolved

/-- A successful assignment is a declaration in some scope. -/
theorem of_assign {store later : Store} {scope : Nat} {name : String} {value : Value}
    (assigned : store.assign scope name value = .ok later) :
    ∃ found, later = store.declare found name value := by
  unfold assign at assigned
  split at assigned
  · next found _ =>
      cases assigned
      exact ⟨found, rfl⟩
  · cases assigned

end Offside.Store
