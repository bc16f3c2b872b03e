/-
This file is about whole sessions. Whatever the steps of a session are and however they end, the
scopes stay well-formed and every function declaration gives a new function value.
-/

import Offside.Session
import Offside.Proofs.Evaluation.Issue
import Mathlib.Logic.Relation

namespace Offside

open Run

/-- A session has a machine and the values that were handed out. -/
structure Session where
  machine : Machine
  held : List Value

/-- An evaluation hands out its value or those of its error. -/
def handedOut : Except RuntimeError Value → List Value
  | .ok value => [value]
  | .error error => error.fault.values

def Event.function? : Event → Option Value
  | declared function _ => some function
  | printed _ | evaluated _ | opened _ _ => none

namespace Session

def start (clock : Clock) (echoes : Bool) : Session := ⟨.start clock echoes, []⟩

/-- The value was handed out or is bound in some scope. -/
def Has (session : Session) (value : Value) : Prop :=
  value ∈ session.held ∨ ∃ scope name, session.machine.store.local? scope name = some value

/-- The scope of the function is there, and the identity was given to this function only. -/
def Respects (session : Session) : Value → Prop
  | .callable function identity =>
      function.Placed session.machine.store ∧ identity < session.machine.store.identities ∧
        ∀ other, session.Has (.callable other identity) → other = function
  | _ => True

/-- These are the steps of a session. A script may be rejected, and scripts and expressions may end
in errors. Functions may also be made from outside, and values may be bound from outside. -/
inductive Step : Session → Session → Prop
  | run {session fuel source completion} : session.machine.run fuel source = some completion →
      Step session { session with machine := completion.machine }
  | evaluate {session fuel expression result after} :
      session.machine.evaluate fuel expression = some (result, after) →
      Step session ⟨after, handedOut result ++ session.held⟩
  | register {session} (native : Native) :
      Step session { session with machine := session.machine.register native }
  | echo {session} (echoes : Bool) :
      Step session { session with machine := { session.machine with echoes } }
  | create {session function value store} : function.Placed session.machine.store →
      session.machine.store.newFunction function = (value, store) →
      Step session ⟨{ session.machine with store }, value :: session.held⟩
  | declare {session value} (name : String) : session.Respects value →
      Step session { session with machine := { session.machine with
        store := session.machine.store.declare Machine.globals name value } }
  | assign {session value name store} : session.Respects value →
      session.machine.store.assign Machine.globals name value = .ok store →
      Step session { session with machine := { session.machine with store } }

/-- The session is well-formed with respect to a ledger. -/
structure Sound (session : Session) (ledger : List Callable) : Prop where
  store : session.machine.store.Sound ledger
  held : ∀ value ∈ session.held, value.Issued ledger

/-- The scopes of the session are well-formed, and so are its function values. -/
structure WellFormed (session : Session) : Prop where
  rooted : Machine.globals < session.machine.store.scopes.size
  top : session.machine.store.parent? Machine.globals = none
  outward : ∀ scope outer, session.machine.store.parent? scope = some outer →
    outer < scope ∧ scope < session.machine.store.scopes.size
  acyclic : WellFounded fun outer scope => session.machine.store.parent? scope = some outer
  walks : ∀ name scope, session.machine.store.resolve? name scope =
    if (session.machine.store.local? scope name).isSome then some scope
    else (session.machine.store.parent? scope).bind (session.machine.store.resolve? name)
  placed : ∀ function identity, session.Has (.callable function identity) →
    function.Placed session.machine.store
  same : ∀ function identity other number, session.Has (.callable function identity) →
    session.Has (.callable other number) →
    (Value.callable function identity).isEqual (.callable other number) → function = other

/-- A run of the session goes through these events. The functions that they declare differ from all
that the session has, from all that is bound when they are declared, and from each other. The
scopes that they open are new, and in the end they are where they were opened. -/
structure Fresh (session : Session) (events : List Event) (after : Machine) : Prop where
  apart : ∀ value store, .declared value store ∈ events → ∀ other,
    (session.Has other ∨ ∃ scope name, store.local? scope name = some other) →
    value.isEqual other = false
  distinct : (events.filterMap Event.function?).Pairwise fun first second =>
    first.isEqual second = false
  opened : ∀ scope parent, .opened scope parent ∈ events →
    session.machine.store.scopes.size ≤ scope ∧ after.store.parent? scope = some parent

end Session

section Steps

variable {machine : Machine} {ledger : List Callable}

/-- A first scope without names is sound. -/
theorem Store.newRoot_sound : Store.empty.newRoot.2.Sound [] where
  rooted := Nat.zero_lt_one
  top := rfl
  outward {scope outer} found := by
    cases scope with
    | zero => cases found
    | succ scope =>
        rw [Store.parent?_of_outside _ (Nat.succ_le_succ (Nat.zero_le scope))] at found
        cases found
  counted := rfl
  placed function listed := absurd listed List.not_mem_nil
  issued found := by
    rw [Store.local?_newRoot] at found
    cases found

/-- A native that is registered gets the next entry of the ledger. -/
theorem Machine.register_sound (sound : machine.store.Sound ledger) (native : Native) :
    (machine.register native).store.Sound (ledger ++ [.native native]) ∧
      machine.store.Precedes (machine.register native).store := by
  have issued := sound.newFunction_issued (.native native)
  have placed : (Callable.native native).Placed machine.store := trivial
  exact ⟨(sound.newFunction placed).declare issued,
    (machine.store.precedes_newFunction (.native native)).trans (Store.precedes_declare _ _ _ _)⟩

/-- A script is rejected, or its statements run. -/
theorem Machine.of_run {fuel : Nat} {source : String} {completion : Completion}
    (ran : machine.run fuel source = some completion) :
    completion.machine = machine ∨
      ∃ trees errors, machine.Interprets trees errors completion.machine := by
  unfold Machine.run at ran
  split at ran
  · cases ran
    exact .inl rfl
  · next trees _ =>
      obtain ⟨⟨errors, after⟩, ends, rfl⟩ := Option.map_eq_some_iff.1 ran
      exact .inr ⟨trees, errors, fuel, ends⟩

/-- An evaluation from outside runs in the global scope. -/
theorem Machine.of_evaluate {fuel : Nat} {expression : Expression}
    {result : Except RuntimeError Value} {after : Machine}
    (ran : machine.evaluate fuel expression = some (result, after)) :
    Task.run fuel (.evaluate globals expression) machine = finished result after := by
  unfold Machine.evaluate at ran
  split at ran
  · next ended =>
      cases ran
      exact ended
  · next ended =>
      cases ran
      exact ended
  · cases ran

/-- What an evaluation hands out is in the ledger. -/
theorem Gives.handedOut {result : Except RuntimeError Value}
    (gives : Gives ledger (Value.Issued ledger) result) :
    ∀ value ∈ handedOut result, value.Issued ledger := by
  cases result with
  | ok value =>
      intro other listed
      rw [List.mem_singleton.1 listed]
      exact gives
  | error error => exact gives

end Steps

namespace Session

section Sound

variable {session next : Session} {ledger : List Callable} {value : Value}

/-- What a sound session has is in the ledger. -/
theorem Sound.has (sound : session.Sound ledger) (has : session.Has value) :
    value.Issued ledger := by
  rcases has with held | ⟨scope, name, bound⟩
  · exact sound.held value held
  · exact sound.store.issued bound

/-- A value that respects the session can be entered into the ledger, even if its function is no
longer there. -/
theorem Sound.admit (sound : session.Sound ledger) (respects : session.Respects value) :
    ∃ later, session.Sound later ∧ value.Issued later := by
  cases value with
  | callable function identity =>
      obtain ⟨placed, known, only⟩ := respects
      rw [sound.store.counted] at known
      -- Only values that are no longer there can have had another function under this identity.
      have kept {other : Value} (has : session.Has other) :
          other.Issued (ledger.set identity function) := by
        have issued := sound.has has
        cases other with
        | callable found number =>
            by_cases same : identity = number
            · subst same
              rw [only found has]
              exact List.getElem?_set_self known
            · exact (List.getElem?_set_ne same).trans issued
        | nil | bool | number | string => trivial
      refine ⟨ledger.set identity function, ⟨?_, ?_⟩, List.getElem?_set_self known⟩
      · refine ⟨sound.store.rooted, sound.store.top, sound.store.outward, ?_, ?_, ?_⟩
        · rw [List.length_set, sound.store.counted]
        · intro other listed
          rcases List.mem_or_eq_of_mem_set listed with old | rfl
          · exact sound.store.placed other old
          · exact placed
        · intro scope name other bound
          exact kept (.inr ⟨scope, name, bound⟩)
      · intro other held
        exact kept (.inl held)
  | nil | bool | number | string => exact ⟨ledger, sound, trivial⟩

/-- A session starts sound. -/
theorem start_sound (clock : Clock) (echoes : Bool) :
    ∃ ledger, (start clock echoes).Sound ledger := by
  have all (natives : List Native) {machine : Machine} {ledger : List Callable}
      (sound : machine.store.Sound ledger) :
      ∃ later, (natives.foldl Machine.register machine).store.Sound later := by
    induction natives generalizing machine ledger with
    | nil => exact ⟨ledger, sound⟩
    | cons native rest inductionHypothesis =>
        exact inductionHypothesis (Machine.register_sound sound native).1
  let bare : Machine := ⟨Store.empty.newRoot.2, #[], echoes, clock, 0⟩
  have rooted : bare.store.Sound [] := Store.newRoot_sound
  obtain ⟨ledger, sound⟩ := all Native.initial rooted
  exact ⟨ledger, sound, fun value absent => absurd absent List.not_mem_nil⟩

/-- Every step leads from a well-formed session to a well-formed one and keeps all parents. -/
theorem Step.sound (step : Step session next) (sound : session.Sound ledger) :
    ∃ later, next.Sound later ∧ session.machine.store.Precedes next.machine.store := by
  cases step with
  | run ran =>
      rcases Machine.of_run ran with same | ⟨trees, errors, ends⟩
      · rw [same]
        exact ⟨ledger, sound, .refl _⟩
      · obtain ⟨events, recounts⟩ := Machine.interprets_iff_recounts.1 ends
        obtain ⟨later, advances⟩ := recounts.advances sound.store
        exact ⟨later, ⟨advances.sound, fun value held => advances.issued (sound.held value held)⟩,
          advances.precedes⟩
  | @evaluate fuel expression result after ran =>
      obtain ⟨events, runs⟩ := ends_iff_runs.1 ⟨fuel, Machine.of_evaluate ran⟩
      obtain ⟨later, advances, gives⟩ := runs.advances sound.store sound.store.rooted
      refine ⟨later, ⟨advances.sound, fun value held => ?_⟩, advances.precedes⟩
      rcases List.mem_append.1 held with given | held
      · exact gives.handedOut value given
      · exact advances.issued (sound.held value held)
  | register native =>
      obtain ⟨later, precedes⟩ := Machine.register_sound sound.store native
      exact ⟨_, ⟨later, fun value held => (sound.held value held).mono (List.prefix_append _ _)⟩,
        precedes⟩
  | echo echoes => exact ⟨ledger, ⟨sound.store, sound.held⟩, .refl _⟩
  | @create function _ _ placed made =>
      cases made
      refine ⟨ledger ++ [function], ⟨sound.store.newFunction placed, fun value held => ?_⟩,
        session.machine.store.precedes_newFunction function⟩
      rcases List.mem_cons.1 held with rfl | held
      · exact sound.store.newFunction_issued function
      · exact (sound.held value held).mono (List.prefix_append _ _)
  | declare name respects =>
      obtain ⟨later, kept, issued⟩ := sound.admit respects
      exact ⟨later, ⟨kept.store.declare issued, kept.held⟩,
        session.machine.store.precedes_declare _ _ _⟩
  | assign respects assigned =>
      obtain ⟨later, kept, issued⟩ := sound.admit respects
      obtain ⟨found, rfl⟩ := Store.of_assign assigned
      exact ⟨later, ⟨kept.store.declare issued, kept.held⟩,
        session.machine.store.precedes_declare _ _ _⟩

/-- A sound session is well-formed. -/
theorem Sound.wellFormed (sound : session.Sound ledger) : session.WellFormed where
  rooted := sound.store.rooted
  top := sound.store.top
  outward scope outer found := by
    refine ⟨sound.store.outward found, ?_⟩
    by_contra outside
    rw [Store.parent?_of_outside _ (Nat.le_of_not_lt outside)] at found
    cases found
  acyclic := Subrelation.wf sound.store.outward Nat.lt_wfRel.wf
  walks := sound.store.resolve?_eq
  placed function identity has := sound.store.placed_of_issued (sound.has has)
  same function identity other number first second equal := by
    have one : ledger[identity]? = some function := sound.has first
    have two : ledger[number]? = some other := sound.has second
    have numbers : identity = number := eq_of_beq equal
    rw [numbers, two] at one
    exact (Option.some.inj one).symm

end Sound

end Session

/-- A function value differs from all that came before it. -/
theorem Value.Issued.isEqual_eq_false {ledger : List Callable} {other : Value}
    (issued : other.Issued ledger) (function : Callable) {identity : Nat}
    (fresh : ledger.length ≤ identity) :
    (Value.callable function identity).isEqual other = false := by
  cases other with
  | callable found number =>
      have known := (List.getElem?_eq_some_iff.1 issued).1
      exact beq_eq_false_iff_ne.2 (by omega)
  | nil | bool | number | string => rfl

/-- Functions that are declared one after the other differ. -/
theorem Issues.distinct {ledger later : List Callable} {events : List Event}
    (issues : Issues ledger events later) :
    (events.filterMap Event.function?).Pairwise fun first second =>
      first.isEqual second = false := by
  induction issues with
  | nil => exact .nil
  | printed _ inductionHypothesis | evaluated _ inductionHypothesis
  | opened _ inductionHypothesis => exact inductionHypothesis
  | @declared ledger function store events _ sound rest inductionHypothesis =>
      refine .cons ?_ inductionHypothesis
      intro other listed
      obtain ⟨event, among, found⟩ := List.mem_filterMap.1 listed
      cases event with
      | declared other store =>
          cases found
          obtain ⟨function, earlier, grows, -, rfl⟩ := rest.of_declared among
          have longer := grows.length_le
          rw [List.length_append, List.length_singleton] at longer
          exact beq_eq_false_iff_ne.2 (by omega)
      | printed | evaluated | opened => cases found

/-- The events of a sound session are fresh. -/
theorem Session.Sound.fresh {session : Session} {ledger later : List Callable}
    {events : List Event} {after : Machine} (sound : session.Sound ledger)
    (advances : Advances ledger session.machine.store events later after.store) :
    session.Fresh events after where
  apart value store listed other existing := by
    obtain ⟨function, earlier, grows, kept, rfl⟩ := advances.issues.of_declared listed
    apply Value.Issued.isEqual_eq_false _ function (Nat.le_refl _)
    rcases existing with has | ⟨scope, name, bound⟩
    · exact (sound.has has).mono grows
    · exact kept.issued bound
  distinct := advances.issues.distinct
  opened scope parent listed := by
    obtain ⟨new, -, found⟩ := advances.opened scope parent listed
    exact ⟨new, found⟩

namespace Session

/-- One session follows from another by steps. -/
abbrev Reaches : Session → Session → Prop := Relation.ReflTransGen Step

/-- A session stays sound through its steps. -/
theorem Reaches.sound {session later : Session} {ledger : List Callable}
    (reaches : session.Reaches later) (sound : session.Sound ledger) :
    ∃ last, later.Sound last ∧ session.machine.store.Precedes later.machine.store := by
  induction reaches with
  | refl => exact ⟨ledger, sound, .refl _⟩
  | tail _ step inductionHypothesis =>
      obtain ⟨middle, kept, precedes⟩ := inductionHypothesis
      obtain ⟨last, final, further⟩ := step.sound kept
      exact ⟨last, final, precedes.trans further⟩

end Session

/-- Sessions stay well-formed. From a new machine, whatever the steps are and however they end, the
scopes and the function values are well-formed, and no scope ever changes its parent. Each script
and each expression that ends has an account by the rules, in which all functions and scopes are
new. -/
theorem session_wellFormed {clock : Clock} {echoes : Bool} {session : Session}
    (reached : (Session.start clock echoes).Reaches session) :
    session.WellFormed ∧
    (∀ later, session.Reaches later →
      session.machine.store.Precedes later.machine.store) ∧
    (∀ trees errors after, session.machine.Interprets trees errors after →
      (∃ events, session.machine.Recounts trees errors events after) ∧
      ∀ events, session.machine.Recounts trees errors events after → session.Fresh events after) ∧
    ∀ expression result after,
      Ends (fun fuel => evaluate fuel Machine.globals expression) session.machine result after →
      (∃ events, Runs (.evaluate Machine.globals expression) session.machine result events after) ∧
      ∀ events, Runs (.evaluate Machine.globals expression) session.machine result events after →
        session.Fresh events after := by
  obtain ⟨origin, started⟩ := Session.start_sound clock echoes
  obtain ⟨ledger, sound, -⟩ := reached.sound started
  refine ⟨sound.wellFormed, ?_, ?_, ?_⟩
  · intro later reaches
    obtain ⟨last, -, precedes⟩ := reaches.sound sound
    exact precedes
  · intro trees errors after ends
    refine ⟨Machine.interprets_iff_recounts.1 ends, fun events recounts => ?_⟩
    obtain ⟨later, advances⟩ := recounts.advances sound.store
    exact sound.fresh advances
  · intro expression result after ends
    have ends : Ends (fun fuel => Task.run fuel (.evaluate Machine.globals expression))
        session.machine result after := ends
    refine ⟨ends_iff_runs.1 ends, fun events runs => ?_⟩
    obtain ⟨later, advances, -⟩ := runs.advances sound.store sound.store.rooted
    exact sound.fresh advances

/-- After a native was registered and an expression failed, one declaration runs twice. -/
theorem session_wellFormed_twice :
    let tree : Statement := .func ⟨"f", 1⟩ [] []
    ∃ session events after first second,
      (Session.start (.ticking 0) false).Reaches session ∧ session.WellFormed ∧
      session.machine.Recounts [tree, tree] [] events after ∧
      events.filterMap Event.function? = [first, second] ∧ first.isEqual second = false := by
  intro tree
  let machine := (Machine.start (.ticking 0) false).register .double
  let failing : Expression := .unary .negate (.constant .nil 1) 1
  have failed : machine.evaluate 3 failing = some (.error ⟨.nonNumeric .nil, 1⟩, machine) := rfl
  have registered : (Session.start (.ticking 0) false).Step ⟨machine, []⟩ := .register .double
  have evaluated : Session.Step ⟨machine, []⟩
      ⟨machine, handedOut (.error ⟨.nonNumeric .nil, 1⟩) ++ []⟩ := .evaluate failed
  have reached := Relation.ReflTransGen.tail (.single registered) evaluated
  have recounts : machine.Recounts [tree, tree] [] _ _ :=
    .cons (.func rfl rfl) (.cons (.func rfl rfl) .nil)
  obtain ⟨wellFormed, -, scripts, -⟩ := session_wellFormed reached
  have ends := Machine.interprets_iff_recounts.2 ⟨_, recounts⟩
  have fresh := ((scripts [tree, tree] [] _ ends).2 _ recounts).distinct
  exact ⟨_, _, _, _, _, reached, wellFormed, recounts, rfl,
    (List.pairwise_cons.1 fresh).1 _ (.head _)⟩

end Offside
