/-
This file says on which scopes a call depends. They are those that can be reached from the function
and its arguments, wherever the call stands.
-/

import Offside.Proofs.Evaluation.Twins

namespace Offside

namespace Store

/-- A scope leads to its parent, and to the scopes of the functions that are bound in it. -/
inductive Reaches (store : Store) (roots : Nat → Prop) : Nat → Prop
  | root {scope : Nat} : roots scope → Reaches store roots scope
  | parent {scope outer : Nat} : Reaches store roots scope → store.parent? scope = some outer →
      Reaches store roots outer
  | closure {scope identity : Nat} {name : String} {function : Closure} :
      Reaches store roots scope →
      store.local? scope name = some (.callable (.closure function) identity) →
      Reaches store roots function.scope

/-- The scope has the same parent and the same bindings in both stores. -/
structure AgreeAt (left right : Store) (scope : Nat) : Prop where
  parent : left.parent? scope = right.parent? scope
  locals : ∀ name, left.local? scope name = right.local? scope name

end Store

/-- The machines have as many scopes and function values, echo alike, read the same times from now
on, and agree on these scopes. -/
structure Machine.Agree (sees : Nat → Prop) (left right : Machine) : Prop where
  size : left.store.scopes.size = right.store.scopes.size
  identities : left.store.identities = right.store.identities
  echoes : left.echoes = right.echoes
  clocks : ∀ count, left.clock (left.readings + count) = right.clock (right.readings + count)
  scopes : ∀ scope, sees scope → left.store.AgreeAt right.store scope

/-- A call starts from the scopes of its function and of the functions among its arguments. -/
def Closure.roots (closure : Closure) (arguments : List Value) (scope : Nat) : Prop :=
  scope = closure.scope ∨
    ∃ function identity, .callable (.closure function) identity ∈ arguments ∧ scope = function.scope

/-- Stores that agree on all that one of them reaches reach the same. -/
theorem Store.reaches_of_agree {left right : Store} {roots : Nat → Prop} {scope : Nat}
    (agree : ∀ other, left.Reaches roots other → left.AgreeAt right other)
    (reached : right.Reaches roots scope) : left.Reaches roots scope := by
  induction reached with
  | root isRoot => exact .root isRoot
  | parent _ found inductionHypothesis =>
      rw [← (agree _ inductionHypothesis).parent] at found
      exact inductionHypothesis.parent found
  | closure _ found inductionHypothesis =>
      rw [← (agree _ inductionHypothesis).locals] at found
      exact inductionHypothesis.closure found

/-- Machines that agree on what the one reaches agree on what the other reaches. -/
theorem Machine.Agree.symm {roots : Nat → Prop} {left right : Machine}
    (agree : left.Agree (left.store.Reaches roots) right) :
    right.Agree (right.store.Reaches roots) left where
  size := agree.size.symm
  identities := agree.identities.symm
  echoes := agree.echoes.symm
  clocks count := (agree.clocks count).symm
  scopes scope reached := by
    have same := agree.scopes scope (Store.reaches_of_agree agree.scopes reached)
    exact ⟨same.parent.symm, fun name => (same.locals name).symm⟩

/-- A run sees the scopes that it can reach when it starts, and all that come later. -/
def Machine.InSight (machine : Machine) (roots : Nat → Prop) (scope : Nat) : Prop :=
  machine.store.Reaches roots scope ∨ machine.store.scopes.size ≤ scope

/-- A value that a scope in sight binds is seen. -/
theorem Value.seen_of_local? {machine : Machine} {roots : Nat → Prop} {scope : Nat} {name : String}
    {value : Value} (reached : machine.store.Reaches roots scope)
    (bound : machine.store.local? scope name = some value) :
    value.Seen (machine.InSight roots) := by
  rcases value with _ | _ | _ | _ | ⟨_ | function, identity⟩ <;> try trivial
  exact .inl (reached.closure bound)

section Call

variable {closure : Closure} {arguments : List Value} {left right : Machine} {roots : Nat → Prop}

/-- Machines that agree have stores that are alike in sight. -/
theorem Machine.Agree.stores (agree : left.Agree (left.store.Reaches roots) right) :
    left.store.Alike id (left.InSight roots) right.store where
  size := agree.size
  identities := agree.identities
  fresh _ outside := .inr outside
  parents scope seen := by
    rcases seen with reached | outside
    · exact (agree.scopes scope reached).parent
    · rw [left.store.parent?_of_outside outside,
        right.store.parent?_of_outside (agree.size ▸ outside)]
  outward scope outer seen parent := by
    rcases seen with reached | outside
    · exact .inl (reached.parent parent)
    · rw [left.store.parent?_of_outside outside] at parent
      cases parent
  locals scope name seen := by
    rcases seen with reached | outside
    · rw [← (agree.scopes scope reached).locals]
      cases bound : left.store.local? scope name with
      | none => exact .none
      | some value => exact .some ⟨rfl, Value.seen_of_local? reached bound⟩
    · rw [left.store.local?_of_outside outside,
        right.store.local?_of_outside (agree.size ▸ outside)]
      exact .none

/-- Machines that agree start as twins. -/
theorem Machine.Agree.twins (agree : left.Agree (left.store.Reaches roots) right) :
    Twins id (left.InSight roots) left right left right where
  stores := agree.stores
  echoes := agree.echoes
  clocks := agree.clocks
  writes := ⟨#[], by simp, by simp⟩
  unseen _ _ := ⟨rfl, rfl⟩

/-- Bindings that are alike on the same lines are equal. -/
theorem eq_of_rel {sees : Nat → Prop} {first second : Option Value}
    (values : Option.Rel (Value.Alike id sees) first second) : first = second := by
  cases values with
  | none => rfl
  | some values => rw [values.eq]

/-- Twins on the same lines agree. -/
theorem Machine.Twins.agree {sees : Nat → Prop} {after last : Machine}
    (twins : Twins id sees left right after last) : after.Agree sees last where
  size := twins.stores.size
  identities := twins.stores.identities
  echoes := twins.echoes
  clocks := twins.clocks
  scopes scope seen := by
    have locals (name : String) := eq_of_rel (twins.stores.locals scope name seen)
    exact ⟨twins.stores.parents scope seen, locals⟩

open Run

/-- The arguments of a call are like themselves in its sight. -/
theorem arguments_alike (arguments : List Value) (closure : Closure) (machine : Machine) :
    List.Forall₂ (Value.Alike id (machine.InSight (closure.roots arguments))) arguments
      arguments := by
  rw [List.forall₂_same]
  intro value given
  refine ⟨rfl, ?_⟩
  rcases value with _ | _ | _ | _ | ⟨_ | function, identity⟩ <;> try trivial
  exact .inl (.root (.inr ⟨function, identity, given, rfl⟩))

/-- If one call ends then so does the other, and the machines are still twins. -/
theorem call_twins (agree : left.Agree (left.store.Reaches (closure.roots arguments)) right)
    {result : Except RuntimeError Value} {after : Machine}
    (ends : Ends (fun fuel => call fuel closure arguments) left result after) :
    ∃ last, Ends (fun fuel => call fuel closure arguments) right result last ∧
      Machine.Twins id (left.InSight (closure.roots arguments)) left right after last := by
  obtain ⟨fuel, ends⟩ := ends
  let pair := Lockstep.twins id (left.InSight (closure.roots arguments)) left right
  have tracks : pair.Tracks pair.Alike (call fuel closure arguments)
      (call fuel closure arguments) :=
    (Lockstep.follows fuel fuel (Nat.le_refl fuel)).call (.inl (.root (.inl rfl))) rfl
      (arguments_alike arguments closure left)
  obtain ⟨other, last, same, results, later⟩ := tracks.finished agree.twins ends
  obtain rfl := EndsAlike.eq Value.Alike.eq results
  exact ⟨last, ⟨fuel, same⟩, later⟩

/-- Calls are lexically scoped. Two calls of a function from machines that agree on all that can be
reached from the function and its arguments end in the same way, write the same, and leave the same
in these scopes and in the new ones. What else there was in the two machines is neither seen by the
calls nor changed, even if they fail. -/
theorem call_lexical (agree : left.Agree (left.store.Reaches (closure.roots arguments)) right) :
    ((∃ result after, Ends (fun fuel => call fuel closure arguments) left result after) ↔
      ∃ result after, Ends (fun fuel => call fuel closure arguments) right result after) ∧
    ∀ result after other last, Ends (fun fuel => call fuel closure arguments) left result after →
      Ends (fun fuel => call fuel closure arguments) right other last →
      result = other ∧
      (∃ added, after.writes = left.writes ++ added ∧ last.writes = right.writes ++ added) ∧
      after.Agree (left.InSight (closure.roots arguments)) last ∧
      ∀ scope < left.store.scopes.size, ¬ left.store.Reaches (closure.roots arguments) scope →
        after.store.scopes[scope]? = left.store.scopes[scope]? ∧
          last.store.scopes[scope]? = right.store.scopes[scope]? := by
  constructor
  · constructor
    · rintro ⟨result, after, ends⟩
      obtain ⟨last, again, -⟩ := call_twins agree ends
      exact ⟨result, last, again⟩
    · rintro ⟨result, after, ends⟩
      obtain ⟨last, again, -⟩ := call_twins agree.symm ends
      exact ⟨result, last, again⟩
  · intro result after other last ends again
    obtain ⟨found, also, twins⟩ := call_twins agree ends
    obtain ⟨rfl, rfl⟩ := (steady_call closure arguments).unique also again
    refine ⟨rfl, twins.writes, twins.agree, ?_⟩
    intro scope inside hidden
    apply twins.unseen
    rintro (reached | outside)
    · exact hidden reached
    · omega

/-- A function of the global scope is called while an inner scope holds one value or another. -/
theorem call_lexical_inner :
    let store (value : Value) := (Store.empty.newRoot.2.newScope 0).2.declare 1 "x" value
    let machine (value : Value) : Machine := ⟨store value, #[], true, .ticking 0, 0⟩
    let closure : Closure := ⟨⟨"f", 1⟩, [], [.expression (.constant .nil 2)], 0⟩
    ∃ after last, Ends (fun fuel => call fuel closure []) (machine .nil) (.ok .nil) after ∧
      Ends (fun fuel => call fuel closure []) (machine (.bool true)) (.ok .nil) last ∧
      after.writes = #[.echoed "nil\n"] ∧ last.writes = after.writes ∧
      after.store.scopes[1]? = (machine .nil).store.scopes[1]? ∧
      last.store.scopes[1]? = (machine (.bool true)).store.scopes[1]? := by
  intro store machine closure
  have size : (store .nil).scopes.size = 2 := by
    simp only [store, Store.size_declare, Store.size_newScope]
    rfl
  have root : (store .nil).parent? 0 = none := by
    simp only [store, Store.parent?_declare, Store.parent?_newScope]
    rfl
  have bare (name : String) : (store .nil).local? 0 name = none := by
    simp only [store, Store.local?_declare, Store.local?_newScope]
    rfl
  have only : ∀ scope, (store .nil).Reaches (closure.roots []) scope → scope = 0 := by
    intro scope reached
    induction reached with
    | root isRoot =>
        rcases isRoot with rfl | ⟨_, _, given, _⟩
        · rfl
        · cases given
    | parent _ found inductionHypothesis =>
        rw [inductionHypothesis, root] at found
        cases found
    | closure _ found inductionHypothesis =>
        rw [inductionHypothesis, bare] at found
        cases found
  have agree : (machine .nil).Agree ((store .nil).Reaches (closure.roots []))
      (machine (.bool true)) := by
    refine ⟨by simp [machine, store], rfl, rfl, fun _ => rfl, ?_⟩
    intro scope reached
    rw [only scope reached]
    refine ⟨by simp [machine, store], fun name => ?_⟩
    simp [machine, store, Store.local?_declare]
  have first : Ends (fun fuel => call fuel closure []) (machine .nil) (.ok .nil) _ := ⟨4, rfl⟩
  have second : Ends (fun fuel => call fuel closure []) (machine (.bool true)) (.ok .nil) _ :=
    ⟨4, rfl⟩
  have kept := ((call_lexical agree).2 _ _ _ _ first second).2.2.2 1 (by rw [size]; decide)
    fun reached => absurd (only 1 reached) (by decide)
  exact ⟨_, _, first, second, rfl, rfl, kept⟩

end Call

end Offside
