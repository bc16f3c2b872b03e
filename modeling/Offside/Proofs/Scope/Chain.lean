/-
This file is about names in shared scopes. A chain lists a scope and those around it, and every
operation on a scope is described by what it does to the chains that pass through it.
-/

import Offside.Proofs.Evaluation.Ends

namespace Offside.Store

/-- The chain of a scope follows the parents outwards, to a scope that has none. -/
inductive Chain (store : Store) : Nat → List Nat → Prop
  | top {scope : Nat} (inside : scope < store.scopes.size)
      (outermost : store.parent? scope = none) : Chain store scope [scope]
  | within {scope outer : Nat} {around : List Nat} (parent : store.parent? scope = some outer)
      (chain : Chain store outer around) : Chain store scope (scope :: around)

/-- This is the first scope of the list that binds the name. -/
def nearest? (store : Store) (name : String) (scopes : List Nat) : Option Nat :=
  scopes.find? fun scope => store.bindsLocally scope name

/-- This is the value of the name in the first scope of the list that binds it. -/
def lookup? (store : Store) (name : String) (scopes : List Nat) : Option Value :=
  scopes.findSome? fun scope => store.local? scope name

/-- The scope is in the list, and none before it binds the name. -/
def Visible (store : Store) (name : String) (scope : Nat) (scopes : List Nat) : Prop :=
  ∃ nearer outer, scopes = nearer ++ scope :: outer ∧
    ∀ other ∈ nearer, store.bindsLocally other name = false

/-- A handle is known by its scope. These are the stores that come from work on handles, each with
all the handles there are. Reading a name and an assignment that fails leave no other store. -/
inductive Handled : Store → List Nat → Prop
  | start : Handled .empty []
  | new {store : Store} {handles : List Nat} (before : Handled store handles) :
      Handled store.newRoot.2 (store.newRoot.1 :: handles)
  | newScope {store : Store} {handles : List Nat} {scope : Nat} (before : Handled store handles)
      (handle : scope ∈ handles) :
      Handled (store.newScope scope).2 ((store.newScope scope).1 :: handles)
  | clone {store : Store} {handles : List Nat} {scope : Nat} (before : Handled store handles)
      (handle : scope ∈ handles) : Handled store (scope :: handles)
  | declare {store : Store} {handles : List Nat} {scope : Nat} (before : Handled store handles)
      (handle : scope ∈ handles) (name : String) (value : Value) :
      Handled (store.declare scope name value) handles
  | assign {store later : Store} {handles : List Nat} {scope : Nat} {name : String} {value : Value}
      (before : Handled store handles) (handle : scope ∈ handles)
      (assigned : store.assign scope name value = .ok later) : Handled later handles

/-- Parents come before their children. -/
def Outward (store : Store) : Prop :=
  ∀ scope outer, store.parent? scope = some outer → outer < scope

variable {store : Store} {scope other : Nat} {scopes : List Nat} {name text : String}
  {value : Value}

section Walk

theorem nearest?_cons (scope : Nat) (scopes : List Nat) :
    store.nearest? name (scope :: scopes) =
      if store.bindsLocally scope name then some scope else store.nearest? name scopes := by
  cases binds : store.bindsLocally scope name <;> simp [nearest?, binds]

theorem lookup?_cons (scope : Nat) (scopes : List Nat) :
    store.lookup? name (scope :: scopes) =
      (store.local? scope name).or (store.lookup? name scopes) := by
  rw [lookup?, List.findSome?_cons]
  cases store.local? scope name <;> rfl

/-- The nearest scope binds the name. -/
theorem nearest?_eq_some (nearest : store.nearest? name scopes = some scope) :
    store.bindsLocally scope name = true := by
  simpa using List.find?_some nearest

/-- The walk outwards stays on the chain. -/
theorem Chain.resolve?_eq (outward : store.Outward) (chain : store.Chain scope scopes) :
    store.resolve? name scope = store.nearest? name scopes := by
  induction chain with
  | top inside outermost =>
      rw [Store.resolve?_eq, nearest?_cons, outermost]
      rfl
  | within parent chain inductionHypothesis =>
      rw [Store.resolve?_eq, nearest?_cons, parent]
      simp only [outward _ _ parent, if_true, inductionHypothesis]
      rfl

/-- The value in the nearest scope is the value that is looked up. -/
theorem bind_nearest? (store : Store) (name : String) (scopes : List Nat) :
    ((store.nearest? name scopes).bind fun scope => store.local? scope name) =
      store.lookup? name scopes := by
  induction scopes with
  | nil => rfl
  | cons scope scopes inductionHypothesis =>
      rw [nearest?_cons, lookup?_cons]
      cases found : store.local? scope name with
      | none => simpa [bindsLocally, found] using inductionHypothesis
      | some value => simp [bindsLocally, found]

/-- A name has a value exactly when some scope is nearest. -/
theorem isSome_lookup? (store : Store) (name : String) (scopes : List Nat) :
    (store.lookup? name scopes).isSome = (store.nearest? name scopes).isSome := by
  rw [← bind_nearest?]
  cases nearest : store.nearest? name scopes with
  | none => rfl
  | some scope => exact nearest?_eq_some nearest

/-- Reading a name finds its first binding on the chain. -/
theorem Chain.get_eq (outward : store.Outward) (chain : store.Chain scope scopes) :
    store.get scope name = match store.lookup? name scopes with
      | some value => .ok value
      | none => .error (.undefinedVariable name) := by
  have found : ((store.resolve? name scope).bind fun place => store.local? place name) =
      store.lookup? name scopes := by
    rw [chain.resolve?_eq outward, bind_nearest?]
  rw [← found]
  rfl

/-- Every scope of the store has a chain. -/
theorem Chain.exists_of_inside (outward : store.Outward) (inside : scope < store.scopes.size) :
    ∃ scopes, store.Chain scope scopes := by
  induction scope using Nat.strongRecOn with
  | ind scope inductionHypothesis =>
      cases parent : store.parent? scope with
      | none => exact ⟨_, .top inside parent⟩
      | some outer =>
          have before := outward scope outer parent
          obtain ⟨around, chain⟩ := inductionHypothesis outer before (by omega)
          exact ⟨_, .within parent chain⟩

end Walk

section Change

/-- A declaration keeps every chain. -/
theorem Chain.declare (name : String) (value : Value) (chain : store.Chain other scopes) :
    (store.declare scope name value).Chain other scopes := by
  induction chain with
  | top inside outermost => exact .top (by simpa) (by simpa)
  | within parent chain inductionHypothesis => exact .within (by simpa) inductionHypothesis

/-- A declaration keeps the parents before their children. -/
theorem Outward.declare (outward : store.Outward) (name : String) (value : Value) :
    (store.declare scope name value).Outward := by
  intro inner outer parent
  rw [parent?_declare] at parent
  exact outward inner outer parent

theorem visible_cons_self (scope : Nat) (scopes : List Nat) :
    store.Visible name scope (scope :: scopes) :=
  ⟨[], scopes, rfl, by simp⟩

/-- A scope is visible behind another one that does not bind the name. -/
theorem visible_cons_of_ne (apart : other ≠ scope) :
    store.Visible name scope (other :: scopes) ↔
      store.bindsLocally other name = false ∧ store.Visible name scope scopes := by
  constructor
  · rintro ⟨nearer, outer, split, unbound⟩
    cases nearer with
    | nil => exact absurd (List.cons.inj split).1 apart
    | cons first nearer =>
        obtain ⟨rfl, rest⟩ := List.cons.inj split
        refine ⟨unbound other (by simp), nearer, outer, rest, ?_⟩
        exact fun between member => unbound between (by simp [member])
  · rintro ⟨free, nearer, outer, rfl, unbound⟩
    refine ⟨other :: nearer, outer, rfl, ?_⟩
    simpa [free] using unbound

/-- A declaration leaves other names as they are. -/
theorem lookup?_declare_of_ne (different : name ≠ text) :
    (store.declare scope name value).lookup? text scopes = store.lookup? text scopes := by
  simp [lookup?, local?_declare, different]

/-- Where the scope is visible, the declared value is found. -/
theorem lookup?_declare_of_visible (inside : scope < store.scopes.size)
    (visible : store.Visible name scope scopes) :
    (store.declare scope name value).lookup? name scopes = some value := by
  induction scopes with
  | nil =>
      obtain ⟨nearer, outer, split, -⟩ := visible
      simp at split
  | cons first rest inductionHypothesis =>
      rw [lookup?_cons]
      by_cases same : first = scope
      · subst same
        simp [local?_declare, inside]
      · obtain ⟨free, further⟩ := (visible_cons_of_ne same).1 visible
        have unbound : store.local? first name = none := by simpa [bindsLocally] using free
        simpa [local?_declare, Ne.symm same, unbound] using inductionHypothesis further

/-- A new binding makes no difference where a nearer one is found first. -/
theorem lookup?_declare_of_not_visible (hidden : ¬store.Visible name scope scopes) :
    (store.declare scope name value).lookup? name scopes = store.lookup? name scopes := by
  induction scopes with
  | nil => rfl
  | cons first rest inductionHypothesis =>
      have apart : first ≠ scope := by
        rintro rfl
        exact hidden (visible_cons_self _ _)
      have same : (store.declare scope name value).local? first name = store.local? first name := by
        simp [local?_declare, apart.symm]
      rw [lookup?_cons, lookup?_cons, same]
      cases found : store.local? first name with
      | some _ => rfl
      | none =>
          rw [Option.none_or, Option.none_or]
          apply inductionHypothesis
          intro further
          apply hidden
          rw [visible_cons_of_ne apart]
          exact ⟨by simp [bindsLocally, found], further⟩

/-- A scope that binds the name shows if and only if the search ends there. -/
theorem visible_iff_nearest? (binds : store.bindsLocally scope name = true) :
    store.Visible name scope scopes ↔ store.nearest? name scopes = some scope := by
  rw [nearest?, List.find?_eq_some_iff_append]
  constructor
  · rintro ⟨nearer, outer, split, unbound⟩
    exact ⟨binds, nearer, outer, split, by simpa using unbound⟩
  · rintro ⟨-, nearer, outer, split, unbound⟩
    exact ⟨nearer, outer, split, by simpa using unbound⟩

/-- The value of a name changes for the handles that see the new binding. -/
theorem Chain.get_declare_of_visible (outward : store.Outward) (chain : store.Chain other scopes)
    (inside : scope < store.scopes.size) (visible : store.Visible name scope scopes) :
    (store.declare scope name value).get other name = .ok value := by
  rw [(chain.declare name value).get_eq (outward.declare name value),
    lookup?_declare_of_visible inside visible]

/-- All else is read as before. -/
theorem Chain.get_declare_of_not (outward : store.Outward) (chain : store.Chain other scopes)
    (elsewhere : ¬(text = name ∧ store.Visible name scope scopes)) :
    (store.declare scope name value).get other text = store.get other text := by
  rw [(chain.declare name value).get_eq (outward.declare name value), chain.get_eq outward]
  by_cases same : text = name
  · subst same
    rw [lookup?_declare_of_not_visible fun visible => elsewhere ⟨rfl, visible⟩]
  · rw [lookup?_declare_of_ne (Ne.symm same)]

/-- A binding that takes the place of another one adds no name to any scope. -/
theorem bindsLocally_declare_of_binds (binds : store.bindsLocally scope name = true) :
    (store.declare scope name value).bindsLocally other text = store.bindsLocally other text := by
  simp only [bindsLocally, local?_declare] at binds ⊢
  split
  · next here =>
      obtain ⟨rfl, rfl, -⟩ := here
      exact binds.symm
  · rfl

/-- A scope that binds a name is there. -/
theorem inside_of_bindsLocally (binds : store.bindsLocally scope name = true) :
    scope < store.scopes.size := by
  apply Nat.lt_of_not_le
  intro outside
  rw [bindsLocally, local?_of_outside store outside] at binds
  cases binds

/-- Assignment goes to the first binding on the chain. -/
theorem Chain.assign_eq_ok_iff (outward : store.Outward) (chain : store.Chain scope scopes)
    {later : Store} : store.assign scope name value = .ok later ↔
      ∃ found, store.nearest? name scopes = some found ∧
        later = store.declare found name value := by
  rw [assign, chain.resolve?_eq outward]
  cases store.nearest? name scopes with
  | none => simp
  | some found => simp [eq_comm]

/-- An assignment succeeds exactly when the name has a value. -/
theorem Chain.assign_succeeds_iff (outward : store.Outward) (chain : store.Chain scope scopes) :
    (∃ later, store.assign scope name value = .ok later) ↔
      ∃ found, store.get scope name = .ok found := by
  have same := store.isSome_lookup? name scopes
  simp only [chain.assign_eq_ok_iff outward, chain.get_eq outward]
  cases lookup : store.lookup? name scopes with
  | none =>
      rw [lookup, Option.isSome_none, eq_comm, Option.isSome_eq_false_iff,
        Option.isNone_iff_eq_none] at same
      simp [same]
  | some found =>
      rw [lookup, Option.isSome_some, eq_comm, Option.isSome_iff_exists] at same
      obtain ⟨nearest, isNearest⟩ := same
      simp [isNearest]

/-- An assignment that fails names its variable, and the machine stays as it is. -/
theorem run_assign_of_error {fault : Fault} (fails : store.assign scope name value = .error fault) :
    fault = .undefinedVariable name ∧
      ∀ (machine : Machine) (line : Nat), machine.store = store →
        Run.assign scope ⟨name, line⟩ value machine = .error (.error ⟨fault, line⟩) machine := by
  cases resolved : store.resolve? name scope with
  | some found =>
      rw [assign, resolved] at fails
      cases fails
  | none =>
      rw [assign, resolved] at fails
      cases fails
      refine ⟨rfl, ?_⟩
      rintro machine line rfl
      exact Run.assign_of_none resolved

end Change

section Handles

variable {handles : List Nat}

/-- Every handle has its scope. -/
theorem Handled.inside (handled : Handled store handles) :
    ∀ scope ∈ handles, scope < store.scopes.size := by
  induction handled with
  | start => simp
  | new before inductionHypothesis =>
      simp only [newRoot, addScope, List.mem_cons, Array.size_push, forall_eq_or_imp]
      exact ⟨Nat.lt_succ_self _, fun scope member =>
        Nat.lt_succ_of_lt (inductionHypothesis scope member)⟩
  | newScope before handle inductionHypothesis =>
      simp only [Store.newScope, addScope, List.mem_cons, Array.size_push, forall_eq_or_imp]
      exact ⟨Nat.lt_succ_self _, fun scope member =>
        Nat.lt_succ_of_lt (inductionHypothesis scope member)⟩
  | clone before handle inductionHypothesis =>
      simp only [List.mem_cons, forall_eq_or_imp]
      exact ⟨inductionHypothesis _ handle, inductionHypothesis⟩
  | declare before handle name value inductionHypothesis => simpa using inductionHypothesis
  | assign before handle assigned inductionHypothesis =>
      obtain ⟨found, rfl⟩ := of_assign assigned
      simpa using inductionHypothesis

/-- A new root changes no parent. -/
theorem parent?_newRoot (store : Store) (scope : Nat) :
    store.newRoot.2.parent? scope = store.parent? scope := by
  simp only [parent?, newRoot, addScope, Array.getElem?_push]
  split
  · next new =>
      subst new
      simp
  · rfl

/-- Work on handles keeps the parents before their children. -/
theorem Handled.outward (handled : Handled store handles) : store.Outward := by
  induction handled with
  | start =>
      intro inner outer parent
      simp [parent?, empty] at parent
  | new before inductionHypothesis =>
      intro inner outer parent
      rw [parent?_newRoot] at parent
      exact inductionHypothesis inner outer parent
  | newScope before handle inductionHypothesis =>
      intro inner outer parent
      rw [parent?_newScope] at parent
      split at parent
      · next new =>
          cases parent
          rw [new]
          exact before.inside _ handle
      · exact inductionHypothesis inner outer parent
  | clone before handle inductionHypothesis => exact inductionHypothesis
  | declare before handle name value inductionHypothesis =>
      exact inductionHypothesis.declare name value
  | assign before handle assigned inductionHypothesis =>
      obtain ⟨found, rfl⟩ := of_assign assigned
      exact inductionHypothesis.declare _ _

end Handles

/-- The operations on handles keep to these laws, where each handle has the given chain. -/
structure Lawful (store : Store) (handles : List Nat) (chain : Nat → List Nat) : Prop where
  chained : ∀ scope ∈ handles, store.Chain scope (chain scope)
  get_eq : ∀ scope ∈ handles, ∀ name,
    store.get scope name = match store.lookup? name (chain scope) with
      | some value => .ok value
      | none => .error (.undefinedVariable name)
  assign_succeeds : ∀ scope ∈ handles, ∀ name value,
    (∃ later, store.assign scope name value = .ok later) ↔
      ∃ found, store.get scope name = .ok found
  assign_fails : ∀ scope ∈ handles, ∀ name value fault,
    store.assign scope name value = .error fault → fault = .undefinedVariable name ∧
      ∀ (machine : Machine) (line : Nat), machine.store = store →
        Run.assign scope ⟨name, line⟩ value machine = .error (.error ⟨fault, line⟩) machine
  assign_bindsLocally : ∀ scope ∈ handles, ∀ name value later,
    store.assign scope name value = .ok later → ∀ other text,
      later.bindsLocally other text = store.bindsLocally other text
  assign_get : ∀ scope ∈ handles, ∀ name value later,
    store.assign scope name value = .ok later → ∀ other ∈ handles, ∀ text,
      later.get other text =
        if text = name ∧ store.nearest? name (chain other) = store.nearest? name (chain scope)
        then .ok value
        else store.get other text
  declare_get : ∀ scope ∈ handles, ∀ name value, ∀ other ∈ handles,
    store.Visible name scope (chain other) →
      (store.declare scope name value).get other name = .ok value
  declare_get_else : ∀ scope ∈ handles, ∀ name value, ∀ other ∈ handles, ∀ text,
    ¬(text = name ∧ store.Visible name scope (chain other)) →
      (store.declare scope name value).get other text = store.get other text

/-- Shared scopes behave as their chains say, whatever was done to them before. -/
theorem handled_lawful {store : Store} {handles : List Nat} (handled : Handled store handles) :
    ∃ chain : Nat → List Nat, store.Lawful handles chain := by
  have outward := handled.outward
  have inside := handled.inside
  have exists_chain : ∀ scope, ∃ scopes, scope ∈ handles → store.Chain scope scopes := by
    intro scope
    by_cases handle : scope ∈ handles
    · obtain ⟨scopes, chain⟩ := Chain.exists_of_inside outward (inside scope handle)
      exact ⟨scopes, fun _ => chain⟩
    · exact ⟨[], fun member => absurd member handle⟩
  choose chain chained using exists_chain
  refine ⟨chain, chained, ?_, ?_, ?_, ?_, ?_, ?_, ?_⟩
  · intro scope handle name
    exact (chained scope handle).get_eq outward
  · intro scope handle name value
    exact (chained scope handle).assign_succeeds_iff outward
  · intro scope handle name value fault fails
    exact run_assign_of_error fails
  · intro scope handle name value later assigned other text
    obtain ⟨found, nearest, rfl⟩ := ((chained scope handle).assign_eq_ok_iff outward).1 assigned
    exact bindsLocally_declare_of_binds (nearest?_eq_some nearest)
  · intro scope handle name value later assigned other otherHandle text
    obtain ⟨found, nearest, rfl⟩ := ((chained scope handle).assign_eq_ok_iff outward).1 assigned
    have binds := nearest?_eq_some nearest
    rw [nearest]
    split
    · next sees =>
        obtain ⟨rfl, sees⟩ := sees
        exact (chained other otherHandle).get_declare_of_visible outward
          (inside_of_bindsLocally binds) ((visible_iff_nearest? binds).2 sees)
    · next elsewhere =>
        rw [← visible_iff_nearest? binds] at elsewhere
        exact (chained other otherHandle).get_declare_of_not outward elsewhere
  · intro scope handle name value other otherHandle seen
    exact (chained other otherHandle).get_declare_of_visible outward (inside scope handle) seen
  · intro scope handle name value other otherHandle text elsewhere
    exact (chained other otherHandle).get_declare_of_not outward elsewhere

/-- The laws hold where an inner scope hides a name of the outer one. -/
theorem handled_lawful_nested :
    let store := ((Store.empty.newRoot.2.newScope 0).2.declare 0 "n" .nil).declare 1 "n" (.bool true)
    Handled store [0, 1, 0] ∧ ∃ chain : Nat → List Nat, store.Lawful [0, 1, 0] chain := by
  intro store
  have nested : Handled (Store.empty.newRoot.2.newScope 0).2 [1, 0] :=
    .newScope (.new .start) (by decide)
  have handled : Handled store [0, 1, 0] :=
    .clone (.declare (.declare nested (by decide) "n" .nil) (by decide) "n" (.bool true)) (by decide)
  exact ⟨handled, handled_lawful handled⟩

end Offside.Store
