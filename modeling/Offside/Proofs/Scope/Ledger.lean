/-
This file is about well-formed stores. Every parent comes before its children, and a ledger lists
each function that got an identity, so that every function value can be looked up in it.
-/

import Offside.Machine
import Offside.Proofs.Scope.Store
import Mathlib.Data.List.Basic

namespace Offside

/-- The scope of a closure is there. -/
def Callable.Placed (store : Store) : Callable → Prop
  | native _ => True
  | closure function => function.scope < store.scopes.size

/-- The ledger lists the function of a function value under its identity. -/
def Value.Issued (ledger : List Callable) : Value → Prop
  | callable function identity => ledger[identity]? = some function
  | _ => True

/-- An operation fails because of these values. -/
def Fault.values : Fault → List Value
  | nonNumeric operand => [operand]
  | nonNumerics left right | mismatchedOperands left right => [left, right]
  | invalidCallee callee => [callee]
  | divisionByZero | undefinedVariable _ | invalidArgumentCount _ _ => []

/-- Every function value in the result of an operation is in the ledger. -/
def Fault.Issued (ledger : List Callable) : Except Fault Value → Prop
  | .ok value => value.Issued ledger
  | .error fault => ∀ value ∈ fault.values, value.Issued ledger

section Operators

variable {ledger later : List Callable} {left right : Value}

/-- A value of the ledger stays in a longer one. -/
theorem Value.Issued.mono {value : Value} (issued : value.Issued ledger)
    (grows : ledger <+: later) : value.Issued later := by
  cases value with
  | callable function identity =>
      obtain ⟨inside, rfl⟩ := List.getElem?_eq_some_iff.1 issued
      exact List.prefix_iff_getElem?.1 grows identity inside
  | nil | bool | number | string => trivial

/-- A unary operator gives values of the ledger only. -/
theorem UnaryOperator.apply_issued (operator : UnaryOperator) (issued : right.Issued ledger) :
    Fault.Issued ledger (operator.apply right) := by
  cases operator with
  | not => trivial
  | negate =>
      cases right <;> simpa [UnaryOperator.apply, Value.negate, Fault.Issued, Fault.values]

/-- Operands that are not both numbers are what the fault is about. -/
theorem Value.operands_issued (first : left.Issued ledger) (second : right.Issued ledger)
    {fault : Fault} (fails : left.operands right = .error fault) :
    ∀ value ∈ fault.values, value.Issued ledger := by
  have both : fault.values = [left, right] := by
    cases left <;> cases right <;> cases fails <;> rfl
  simp [both, first, second]

/-- A binary operator gives values of the ledger only. -/
theorem BinaryOperator.apply_issued (operator : BinaryOperator) (first : left.Issued ledger)
    (second : right.Issued ledger) : Fault.Issued ledger (operator.apply left right) := by
  have numeric (give : Float × Float → Except Fault Value)
      (given : ∀ pair, Fault.Issued ledger (give pair)) :
      Fault.Issued ledger (left.operands right >>= give) := by
    cases taken : left.operands right with
    | error fault => exact Value.operands_issued first second taken
    | ok pair => exact given pair
  cases operator with
  | multiply | subtract | less | lessEqual | greater | greaterEqual =>
      exact numeric _ fun _ => trivial
  | divide =>
      apply numeric
      intro pair
      dsimp only
      split
      · exact fun value absent => absurd absent (by simp [Fault.values])
      · trivial
  | add =>
      cases left with
      | string value => trivial
      | nil | bool | number | callable => exact numeric _ fun _ => trivial
  | equal | notEqual => trivial

end Operators

/-- A native gives values of the ledger only. -/
theorem Machine.callNative_issued {ledger : List Callable} {arguments : List Value}
    (machine : Machine) (native : Native) (issued : ∀ value ∈ arguments, value.Issued ledger) :
    Fault.Issued ledger (machine.callNative native arguments).1 := by
  cases native with
  | clock | print | println => trivial
  | double =>
      cases arguments with
      | nil => exact fun value absent => absurd absent (by simp [Fault.values])
      | cons operand rest =>
          have first := issued operand (by simp)
          cases operand <;> simpa [Machine.callNative, Fault.Issued, Fault.values]

namespace Store

/-- The store is well-formed, and all its function values are in the ledger. -/
structure Sound (store : Store) (ledger : List Callable) : Prop where
  rooted : Machine.globals < store.scopes.size
  top : store.parent? Machine.globals = none
  outward : ∀ {scope outer}, store.parent? scope = some outer → outer < scope
  counted : store.identities = ledger.length
  placed : ∀ function ∈ ledger, function.Placed store
  issued : ∀ {scope name value}, store.local? scope name = some value → value.Issued ledger

/-- The later store has the scopes of the earlier one, inside the same parents. -/
structure Precedes (store later : Store) : Prop where
  size : store.scopes.size ≤ later.scopes.size
  parents : ∀ scope < store.scopes.size, later.parent? scope = store.parent? scope

variable {store later last : Store} {ledger : List Callable} {scope : Nat} {name : String}
  {value : Value}

theorem Precedes.refl (store : Store) : store.Precedes store :=
  ⟨Nat.le_refl _, fun _ _ => rfl⟩

/-- A store that comes before another comes before all that follow. -/
theorem Precedes.trans (first : store.Precedes later) (second : later.Precedes last) :
    store.Precedes last where
  size := Nat.le_trans first.size second.size
  parents scope inside := by
    rw [second.parents scope (Nat.lt_of_lt_of_le inside first.size), first.parents scope inside]

/-- A function stays placed in a later store. -/
theorem Precedes.placed (precedes : store.Precedes later) {function : Callable}
    (placed : function.Placed store) : function.Placed later := by
  cases function with
  | native => trivial
  | closure function => exact Nat.lt_of_lt_of_le placed precedes.size

/-- A declaration leads to a later store. -/
theorem precedes_declare (store : Store) (scope : Nat) (name : String) (value : Value) :
    store.Precedes (store.declare scope name value) := by
  constructor <;> simp

/-- A new scope leads to a later store. -/
theorem precedes_newScope (store : Store) (parent : Nat) :
    store.Precedes (store.newScope parent).2 where
  size := by simp
  parents scope inside := by
    rw [parent?_newScope, if_neg (Nat.ne_of_lt inside)]

/-- A new function leads to a later store. -/
theorem precedes_newFunction (store : Store) (function : Callable) :
    store.Precedes (store.newFunction function).2 :=
  ⟨Nat.le_refl _, fun _ _ => rfl⟩

namespace Sound

variable (sound : store.Sound ledger)

include sound

/-- A declaration of an issued value keeps the store sound. -/
theorem declare (issued : value.Issued ledger) : (store.declare scope name value).Sound ledger where
  rooted := by simpa using sound.rooted
  top := by simpa using sound.top
  outward inside := by
    rw [parent?_declare] at inside
    exact sound.outward inside
  counted := sound.counted
  placed function listed :=
    (precedes_declare store scope name value).placed (sound.placed function listed)
  issued found := by
    rw [local?_declare] at found
    split at found
    · cases found
      exact issued
    · exact sound.issued found

/-- A new scope keeps the store sound. -/
theorem newScope {parent : Nat} (inside : parent < store.scopes.size) :
    (store.newScope parent).2.Sound ledger where
  rooted := Nat.lt_of_lt_of_le sound.rooted (precedes_newScope store parent).size
  top := by
    rw [(precedes_newScope store parent).parents _ sound.rooted]
    exact sound.top
  outward found := by
    rw [parent?_newScope] at found
    split at found
    · next fresh =>
        cases found
        exact fresh ▸ inside
    · exact sound.outward found
  counted := sound.counted
  placed function listed := (precedes_newScope store parent).placed (sound.placed function listed)
  issued found := by
    rw [local?_newScope] at found
    exact sound.issued found

/-- The next entry of the ledger is for the next function. -/
theorem newFunction {function : Callable} (placed : function.Placed store) :
    (store.newFunction function).2.Sound (ledger ++ [function]) where
  rooted := sound.rooted
  top := sound.top
  outward := sound.outward
  counted := by
    rw [List.length_append, List.length_singleton, ← sound.counted]
    rfl
  placed other listed := by
    rcases List.mem_append.1 listed with old | new
    · exact sound.placed other old
    · rw [List.mem_singleton.1 new]
      exact placed
  issued found := (sound.issued found).mono (List.prefix_append _ _)

/-- A new function gets the next identity. -/
theorem newFunction_value (function : Callable) :
    (store.newFunction function).1 = .callable function ledger.length := by
  rw [← sound.counted]
  rfl

/-- A new function is the next entry of the ledger. -/
theorem newFunction_issued (function : Callable) :
    (store.newFunction function).1.Issued (ledger ++ [function]) := by
  rw [sound.newFunction_value]
  simp [Value.Issued]

/-- The closure of a function value has its scope. -/
theorem placed_of_issued {function : Callable} {identity : Nat}
    (issued : (Value.callable function identity).Issued ledger) : function.Placed store :=
  sound.placed function (List.mem_of_getElem? issued)

/-- The value of a name is in the ledger. -/
theorem get_issued : Fault.Issued ledger (store.get scope name) := by
  unfold Store.get
  cases looked : (store.resolve? name scope).bind fun found => store.local? found name with
  | none => exact fun value absent => absurd absent (by simp [Fault.values])
  | some value =>
      obtain ⟨found, -, bound⟩ := Option.bind_eq_some_iff.1 looked
      exact sound.issued bound

/-- Without a check for parents that come later, the walk to a name is the same. -/
theorem resolve?_eq (name : String) (scope : Nat) :
    store.resolve? name scope =
      if (store.local? scope name).isSome then some scope
      else (store.parent? scope).bind (store.resolve? name) := by
  rw [Store.resolve?_eq]
  congr 1
  cases parent : store.parent? scope with
  | none => rfl
  | some outer => exact if_pos (sound.outward parent)

end Sound

end Store

end Offside
