/-
This file holds the scopes of a running script.
-/

import Offside.Value
import Std.Data.TreeMap

namespace Offside

/-- A scope binds names and may lie inside another scope. -/
structure Scope where
  bindings : Std.TreeMap String Value
  parent : Option Nat

namespace Scope

def binds (scope : Scope) (name : String) : Bool := scope.bindings.contains name

def bind (scope : Scope) (name : String) (value : Value) : Scope :=
  { scope with bindings := scope.bindings.insert name value }

end Scope

/-- A store keeps every scope under the number of scopes that were there before it, so a scope may
be shared and outlives the statement that made it. It also counts the function values. -/
structure Store where
  scopes : Array Scope
  identities : Nat

namespace Store

def empty : Store := ⟨#[], 0⟩

def addScope (store : Store) (parent : Option Nat) : Nat × Store :=
  (store.scopes.size, { store with scopes := store.scopes.push ⟨∅, parent⟩ })

/-- A new scope without a parent. -/
def newRoot (store : Store) : Nat × Store := store.addScope none

/-- A new scope inside the given one. -/
def newScope (store : Store) (parent : Nat) : Nat × Store := store.addScope (some parent)

/-- An identity that was never given before. -/
def newIdentity (store : Store) : Nat × Store :=
  (store.identities, { store with identities := store.identities + 1 })

/-- The name is bound in this very scope, over any binding that it has there. -/
def declare (store : Store) (scope : Nat) (name : String) (value : Value) : Store :=
  { store with scopes := store.scopes.modify scope fun found => found.bind name value }

/-- This is the first scope that binds the name, from the given one outwards. Parents come before
their children, so the walk ends. -/
def resolve? (store : Store) (name : String) (scope : Nat) : Option Nat :=
  match store.scopes[scope]? with
  | none => none
  | some found =>
    if found.binds name then some scope
    else match found.parent with
      | none => none
      | some parent => if parent < scope then store.resolve? name parent else none
termination_by scope

/-- This is the value of the name in one scope. -/
def local? (store : Store) (scope : Nat) (name : String) : Option Value :=
  store.scopes[scope]?.bind fun found => found.bindings[name]?

def get (store : Store) (scope : Nat) (name : String) : Except Fault Value :=
  match (store.resolve? name scope).bind fun found => store.local? found name with
  | some value => .ok value
  | none => .error (.undefinedVariable name)

/-- The nearest binding of the name gets a new value. No binding is made. -/
def assign (store : Store) (scope : Nat) (name : String) (value : Value) : Except Fault Store :=
  match store.resolve? name scope with
  | some found => .ok (store.declare found name value)
  | none => .error (.undefinedVariable name)

def bindsLocally (store : Store) (scope : Nat) (name : String) : Bool :=
  (store.local? scope name).isSome

def isRoot (store : Store) (scope : Nat) : Bool :=
  (store.scopes[scope]?.bind Scope.parent).isNone

/-- A new function value. -/
def newFunction (store : Store) (function : Callable) : Value × Store :=
  let (identity, after) := store.newIdentity
  (.callable function identity, after)

end Store

end Offside
