/-
This file is about two machines that cannot be told apart by what a run sees of them.
-/

import Offside.Proofs.Evaluation.Ends
import Mathlib.Data.Option.Basic

namespace Offside

namespace Store

variable {line : Nat → Nat} {sees : Nat → Prop} {left right : Store} {scope : Nat}

/-- The stores have the same scopes, and what is seen of them is the same up to lines. From a scope
that is seen only such scopes can be reached. -/
structure Alike (line : Nat → Nat) (sees : Nat → Prop) (left right : Store) : Prop where
  size : left.scopes.size = right.scopes.size
  identities : left.identities = right.identities
  fresh : ∀ scope, left.scopes.size ≤ scope → sees scope
  parents : ∀ scope, sees scope → left.parent? scope = right.parent? scope
  outward : ∀ scope outer, sees scope → left.parent? scope = some outer → sees outer
  locals : ∀ scope name, sees scope →
    Option.Rel (Value.Alike line sees) (left.local? scope name) (right.local? scope name)

/-- A name is bound in both stores or in neither. -/
theorem Alike.isSome_local? (stores : left.Alike line sees right) (seen : sees scope)
    (name : String) : (left.local? scope name).isSome = (right.local? scope name).isSome := by
  have values := stores.locals scope name seen
  cases first : left.local? scope name <;> cases second : right.local? scope name <;>
    rw [first, second] at values <;> first | rfl | cases values

/-- The walk to a name goes the same way in both stores. -/
theorem Alike.resolve? (stores : left.Alike line sees right) (seen : sees scope) (name : String) :
    left.resolve? name scope = right.resolve? name scope := by
  induction scope using Nat.strongRecOn with
  | ind scope inductionHypothesis =>
      rw [resolve?_eq, resolve?_eq, stores.isSome_local? seen, ← stores.parents scope seen]
      cases parent : left.parent? scope with
      | none => rfl
      | some outer =>
          by_cases before : outer < scope
          · have same := inductionHypothesis outer before (stores.outward scope outer seen parent)
            simp only [before, if_true, same]
          · simp only [before, if_false]

/-- A name is found in a scope that is seen. -/
theorem Alike.seen_of_resolve? (stores : left.Alike line sees right) (seen : sees scope)
    {name : String} {found : Nat} (resolved : left.resolve? name scope = some found) :
    sees found := by
  induction scope using Nat.strongRecOn with
  | ind scope inductionHypothesis =>
      rw [resolve?_eq] at resolved
      split at resolved
      · cases resolved
        exact seen
      · split at resolved
        · cases resolved
        · next outer parent =>
            split at resolved
            · next before =>
                exact inductionHypothesis outer before (stores.outward scope outer seen parent)
                  resolved
            · cases resolved

/-- The two stores give results that are alike for a name. -/
theorem Alike.get (stores : left.Alike line sees right) (seen : sees scope) (name : String) :
    ResultsAlike line sees (left.get scope name) (right.get scope name) := by
  unfold Store.get
  rw [← stores.resolve? seen]
  cases resolved : left.resolve? name scope with
  | none => rfl
  | some found =>
      have values := stores.locals found name (stores.seen_of_resolve? seen resolved)
      rw [Option.bind_some, Option.bind_some]
      cases first : left.local? found name <;> cases second : right.local? found name <;>
        rw [first, second] at values
      case none.none => rfl
      case some.some =>
          cases values with
          | some values => exact values
      all_goals cases values

/-- Stores stay alike when a name is declared in both. -/
theorem Alike.declare (stores : left.Alike line sees right) {first second : Value} (name : String)
    (values : Value.Alike line sees first second) :
    (left.declare scope name first).Alike line sees (right.declare scope name second) where
  size := by simpa using stores.size
  identities := stores.identities
  fresh := by simpa using stores.fresh
  parents := by simpa using stores.parents
  outward := by simpa using stores.outward
  locals other text seen := by
    rw [local?_declare, local?_declare, ← stores.size]
    split
    · exact .some values
    · exact stores.locals other text seen

/-- Stores stay alike when each opens a scope. -/
theorem Alike.newScope (stores : left.Alike line sees right) {parent : Nat} (seen : sees parent) :
    (left.newScope parent).2.Alike line sees (right.newScope parent).2 where
  size := by simpa using stores.size
  identities := stores.identities
  fresh other outside := by
    rw [size_newScope] at outside
    exact stores.fresh other (by omega)
  parents other found := by
    rw [parent?_newScope, parent?_newScope, ← stores.size, stores.parents other found]
  outward other outer found inside := by
    rw [parent?_newScope] at inside
    split at inside
    · cases inside
      exact seen
    · exact stores.outward other outer found inside
  locals := by simpa using stores.locals

/-- Stores stay alike when each issues an identity. -/
theorem Alike.newIdentity (stores : left.Alike line sees right) :
    left.newIdentity.2.Alike line sees right.newIdentity.2 where
  size := stores.size
  identities := congrArg (· + 1) stores.identities
  fresh := stores.fresh
  parents := stores.parents
  outward := stores.outward
  locals := stores.locals

end Store

/-- Two machines are on the way from their starts. They have written the same, and each has left
alone the scopes that are not seen. -/
structure Machine.Twins (line : Nat → Nat) (sees : Nat → Prop) (start start' : Machine)
    (left right : Machine) : Prop where
  stores : left.store.Alike line sees right.store
  echoes : left.echoes = right.echoes
  clocks : ∀ count, left.clock (left.readings + count) = right.clock (right.readings + count)
  writes : ∃ added, left.writes = start.writes ++ added ∧ right.writes = start'.writes ++ added
  unseen : ∀ scope, ¬ sees scope → left.store.scopes[scope]? = start.store.scopes[scope]? ∧
    right.store.scopes[scope]? = start'.store.scopes[scope]?

namespace Machine.Twins

variable {line : Nat → Nat} {sees : Nat → Prop} {start start' left right : Machine}

/-- Twins stay twins when each declares a name. -/
theorem declare (twins : Twins line sees start start' left right) {scope : Nat} {name : String}
    {first second : Value} (seen : sees scope) (values : Value.Alike line sees first second) :
    Twins line sees start start'
      { left with store := left.store.declare scope name first }
      { right with store := right.store.declare scope name second } where
  stores := twins.stores.declare name values
  echoes := twins.echoes
  clocks := twins.clocks
  writes := twins.writes
  unseen other hidden := by
    have apart : other ≠ scope := fun same => hidden (same ▸ seen)
    rw [Store.getElem?_declare _ _ _ apart, Store.getElem?_declare _ _ _ apart]
    exact twins.unseen other hidden

/-- Twins stay twins when each opens a scope. -/
theorem newScope (twins : Twins line sees start start' left right) {parent : Nat}
    (seen : sees parent) :
    Twins line sees start start' { left with store := (left.store.newScope parent).2 }
      { right with store := (right.store.newScope parent).2 } where
  stores := twins.stores.newScope seen
  echoes := twins.echoes
  clocks := twins.clocks
  writes := twins.writes
  unseen other hidden := by
    have apart : other ≠ left.store.scopes.size := fun same =>
      hidden (twins.stores.fresh other (Nat.le_of_eq same.symm))
    rw [Store.getElem?_newScope _ apart, Store.getElem?_newScope _ (twins.stores.size ▸ apart)]
    exact twins.unseen other hidden

/-- Twins stay twins when each writes the same text. -/
theorem write (twins : Twins line sees start start' left right) (text : Write) :
    Twins line sees start start' (left.write text) (right.write text) where
  stores := twins.stores
  echoes := twins.echoes
  clocks := twins.clocks
  writes := by
    obtain ⟨added, first, second⟩ := twins.writes
    exact ⟨added.push text, by simp [Machine.write, first], by simp [Machine.write, second]⟩
  unseen := twins.unseen

/-- Twins stay twins when they print values that are alike. -/
theorem writeAll (twins : Twins line sees start start' left right) (text : Value → Write)
    {lefts rights : List Value} (values : List.Forall₂ (Value.Alike line sees) lefts rights)
    (same : ∀ {first second}, Value.Alike line sees first second → text first = text second) :
    Twins line sees start start' (lefts.foldl (fun after value => after.write (text value)) left)
      (rights.foldl (fun after value => after.write (text value)) right) := by
  induction values generalizing left right with
  | nil => exact twins
  | cons first others inductionHypothesis =>
      rw [List.foldl_cons, List.foldl_cons, same first]
      exact inductionHypothesis (twins.write _)

/-- Twins stay twins when each reads its clock. -/
theorem tick (twins : Twins line sees start start' left right) :
    Twins line sees start start' { left with readings := left.readings + 1 }
      { right with readings := right.readings + 1 } where
  stores := twins.stores
  echoes := twins.echoes
  clocks count := by
    rw [Nat.add_assoc, Nat.add_assoc]
    exact twins.clocks (1 + count)
  writes := twins.writes
  unseen := twins.unseen

/-- A native gives twins results that are alike and leaves them twins. -/
theorem callNative (twins : Twins line sees start start' left right) (native : Native)
    {lefts rights : List Value} (values : List.Forall₂ (Value.Alike line sees) lefts rights) :
    ResultsAlike line sees (left.callNative native lefts).1 (right.callNative native rights).1 ∧
      Twins line sees start start' (left.callNative native lefts).2
        (right.callNative native rights).2 := by
  cases native with
  | clock => exact ⟨⟨congrArg Value.number (twins.clocks 0), trivial⟩, twins.tick⟩
  | print => exact ⟨⟨rfl, trivial⟩, twins.writeAll _ values fun same => by rw [same.display]⟩
  | println => exact ⟨⟨rfl, trivial⟩, twins.writeAll _ values fun same => by rw [same.display]⟩
  | double =>
      cases values with
      | nil => exact ⟨rfl, twins⟩
      | @cons first second _ _ alike others =>
          have same := alike.same
          cases first <;> cases second <;> simp only [Value.reline, reduceCtorEq,
            Value.number.injEq] at same
          case number.number =>
              subst same
              exact ⟨⟨rfl, trivial⟩, twins⟩
          all_goals exact ⟨congrArg Fault.nonNumeric alike.same, twins⟩

end Machine.Twins

open Run

/-- Twins stay twins. -/
def Lockstep.twins (line : Nat → Nat) (sees : Nat → Prop) (start start' : Machine) : Lockstep where
  line := line
  sees := sees
  holds scope _ := sees scope
  machines := Machine.Twins line sees start start'
  get {scope left right} seen names first second twins := by
    have text := Name.text_of_reline names
    have lines : line left.line = line right.line := congrArg Name.line names
    rw [get_apply, get_apply, ← text]
    exact Tracks.ofExcept lines (twins.stores.get seen left.text) twins
  assign {scope left right value other} seen names values first second twins := by
    have text := Name.text_of_reline names
    have lines : line left.line = line right.line := congrArg Name.line names
    have same := twins.stores.resolve? seen left.text
    cases resolved : first.store.resolve? left.text scope with
    | none =>
        rw [assign_of_none resolved, assign_of_none (by rw [← text, ← same, resolved]), ← text]
        exact ⟨_, _, rfl, by rw [RuntimeError.reline, RuntimeError.reline, lines], twins⟩
    | some found =>
        have inside := twins.stores.seen_of_resolve? seen resolved
        rw [assign_of_some resolved, assign_of_some (by rw [← text, ← same, resolved]), ← text]
        exact ⟨(), _, rfl, trivial, twins.declare inside values⟩
  declare seen values _ _ twins := ⟨(), _, rfl, trivial, twins.declare seen values⟩
  newScope seen first second twins := by
    have fresh := twins.stores.fresh first.store.scopes.size (Nat.le_refl _)
    exact ⟨_, _, rfl, ⟨twins.stores.size, fresh, fun _ => fresh⟩, twins.newScope seen⟩
  newFunction functions seen first second twins := by
    have identities : first.store.identities = second.store.identities := twins.stores.identities
    refine ⟨_, _, rfl, ⟨?_, seen⟩, ?_⟩
    · simp [Value.reline, Callable.reline, functions, identities]
    · exact ⟨twins.stores.newIdentity, twins.echoes, twins.clocks, twins.writes, twins.unseen⟩
  callNative {_ _ native _ _} lines values first second twins := by
    obtain ⟨results, after⟩ := twins.callNative native values
    rw [callNative_apply, callNative_apply]
    exact Tracks.ofExcept lines results after
  echo {left right} values first second twins := by
    refine ⟨(), _, rfl, trivial, ?_⟩
    dsimp only
    rw [← twins.echoes, values.display]
    split
    · exact twins.write _
    · exact twins

end Offside
