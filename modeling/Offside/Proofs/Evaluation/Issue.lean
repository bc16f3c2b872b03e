/-
This file follows the ledger of function values through a run. Each function declaration adds the
next entry to it, and every value that a run gives is in it.
-/

import Offside.Proofs.Evaluation.Account
import Offside.Proofs.Scope.Ledger

namespace Offside

open Run

/-- The events lead from one ledger to another. Each function that they declare is new in the store
of its declaration and gets the next entry. -/
inductive Issues : List Callable → List Event → List Callable → Prop
  | nil {ledger} : Issues ledger [] ledger
  | printed {ledger text events later} :
      Issues ledger events later → Issues ledger (.printed text :: events) later
  | evaluated {ledger value events later} :
      Issues ledger events later → Issues ledger (.evaluated value :: events) later
  | opened {ledger scope parent events later} :
      Issues ledger events later → Issues ledger (.opened scope parent :: events) later
  | declared {ledger function store events later} :
      store.Sound ledger → Issues (ledger ++ [function]) events later →
      Issues ledger (.declared (.callable function ledger.length) store :: events) later

section Issues

variable {ledger later last : List Callable} {events further : List Event}

/-- Events in a row issue their functions in a row. -/
theorem Issues.append (first : Issues ledger events later) (second : Issues later further last) :
    Issues ledger (events ++ further) last := by
  induction first with
  | nil => exact second
  | printed _ inductionHypothesis => exact .printed (inductionHypothesis second)
  | evaluated _ inductionHypothesis => exact .evaluated (inductionHypothesis second)
  | opened _ inductionHypothesis => exact .opened (inductionHypothesis second)
  | declared sound _ inductionHypothesis => exact .declared sound (inductionHypothesis second)

/-- The events only add to the ledger. -/
theorem Issues.grows (issues : Issues ledger events later) : ledger <+: later := by
  induction issues with
  | nil => exact List.prefix_refl _
  | printed _ inductionHypothesis | evaluated _ inductionHypothesis
  | opened _ inductionHypothesis => exact inductionHypothesis
  | declared _ _ inductionHypothesis =>
      exact List.IsPrefix.trans (List.prefix_append _ _) inductionHypothesis

/-- A function that is declared on the way gets the entry after all that were made before it. -/
theorem Issues.of_declared (issues : Issues ledger events later) {value : Value} {store : Store}
    (listed : .declared value store ∈ events) :
    ∃ function earlier, ledger <+: earlier ∧ store.Sound earlier ∧
      value = .callable function earlier.length := by
  induction issues with
  | nil => cases listed
  | printed _ inductionHypothesis | evaluated _ inductionHypothesis
  | opened _ inductionHypothesis => exact inductionHypothesis (by simpa using listed)
  | @declared ledger function _ _ _ sound _ inductionHypothesis =>
      rcases List.mem_cons.1 listed with same | listed
      · cases same
        exact ⟨function, ledger, List.prefix_refl _, sound, rfl⟩
      · obtain ⟨found, earlier, grows, kept, same⟩ := inductionHypothesis listed
        exact ⟨found, earlier, List.IsPrefix.trans (List.prefix_append _ _) grows, kept, same⟩

end Issues

/-- The events lead from one well-formed store to a later one. The scopes that they open are new and
are still inside the scopes where they were opened. -/
structure Advances (ledger : List Callable) (store : Store) (events : List Event)
    (later : List Callable) (after : Store) : Prop where
  issues : Issues ledger events later
  sound : after.Sound later
  precedes : store.Precedes after
  opened : ∀ scope parent, .opened scope parent ∈ events →
    store.scopes.size ≤ scope ∧ scope < after.scopes.size ∧ after.parent? scope = some parent

namespace Advances

variable {ledger later last : List Callable} {store after final : Store}
  {events further : List Event}

/-- Events in a row lead from the first store to the last. -/
theorem trans (first : Advances ledger store events later after)
    (second : Advances later after further last final) :
    Advances ledger store (events ++ further) last final where
  issues := first.issues.append second.issues
  sound := second.sound
  precedes := first.precedes.trans second.precedes
  opened scope parent listed := by
    rcases List.mem_append.1 listed with listed | listed
    · obtain ⟨new, inside, found⟩ := first.opened scope parent listed
      refine ⟨new, Nat.lt_of_lt_of_le inside second.precedes.size, ?_⟩
      rw [second.precedes.parents scope inside, found]
    · obtain ⟨new, inside, found⟩ := second.opened scope parent listed
      exact ⟨Nat.le_trans first.precedes.size new, inside, found⟩

/-- A step that opens no scope. -/
theorem closed (issues : Issues ledger events later) (sound : after.Sound later)
    (precedes : store.Precedes after) (none : ∀ scope parent, .opened scope parent ∉ events) :
    Advances ledger store events later after :=
  ⟨issues, sound, precedes, fun scope parent listed => absurd listed (none scope parent)⟩

/-- No event leaves the store and the ledger as they are. -/
theorem refl (sound : store.Sound ledger) : Advances ledger store [] ledger store :=
  .closed .nil sound (.refl store) (by simp)

theorem inside (advances : Advances ledger store events later after) {scope : Nat}
    (inside : scope < store.scopes.size) : scope < after.scopes.size :=
  Nat.lt_of_lt_of_le inside advances.precedes.size

theorem issued (advances : Advances ledger store events later after) {value : Value}
    (issued : value.Issued ledger) : value.Issued later :=
  issued.mono advances.issues.grows

end Advances

/-- The result is good, or the values in its error are in the ledger. -/
def Gives {α : Type} (ledger : List Callable) (good : α → Prop) : Except RuntimeError α → Prop
  | .ok value => good value
  | .error error => ∀ value ∈ error.fault.values, value.Issued ledger

namespace Gives

variable {α β : Type} {ledger later : List Callable} {good : α → Prop}
  {result : Except RuntimeError α}

/-- A mapped result is good when the map gives good values. -/
theorem map {fair : β → Prop} {give : α → β} (gives : Gives ledger good result)
    (given : ∀ value, good value → fair (give value)) : Gives ledger fair (result.map give) := by
  cases result with
  | ok value => exact given value gives
  | error error => exact gives

/-- The blamed result of an operation on issued values is issued. -/
theorem blame {line : Nat} {given : Except Fault Value} (issued : Fault.Issued ledger given) :
    Gives ledger (Value.Issued ledger) (Offside.blame line given) := by
  cases given with
  | ok value => exact issued
  | error fault => exact issued

/-- An operation on good values gives issued ones. -/
theorem bind_blame {line : Nat} {give : α → Except Fault Value} (gives : Gives ledger good result)
    (issued : ∀ value, good value → Fault.Issued ledger (give value)) :
    Gives ledger (Value.Issued ledger)
      (result.bind fun value => Offside.blame line (give value)) := by
  cases result with
  | ok value => exact blame (issued value gives)
  | error error => exact gives

end Gives

namespace Task

/-- The task starts in a scope that is there, with values of the ledger. -/
def Fits {α : Type} (ledger : List Callable) (store : Store) : Task α → Prop
  | evaluate scope _ | evaluateOptional scope _ | evaluateAll scope _ | execute scope _
  | loop scope _ _ => scope < store.scopes.size
  | executeAll scope last _ => scope < store.scopes.size ∧ last.Issued ledger
  | call closure arguments =>
      closure.scope < store.scopes.size ∧ ∀ value ∈ arguments, value.Issued ledger

/-- The task gives values of the ledger. -/
def Good {α : Type} (ledger : List Callable) : Task α → α → Prop
  | evaluate _ _ | evaluateOptional _ _ | call _ _ => Value.Issued ledger
  | evaluateAll _ _ => fun values => ∀ value ∈ values, value.Issued ledger
  | execute _ _ | executeAll _ _ _ | loop _ _ _ => fun signal => signal.value.Issued ledger

end Task

section Primitives

variable {ledger : List Callable} {machine after : Machine} {scope : Nat} {name : String}
  {value : Value} (sound : machine.store.Sound ledger)

include sound

/-- A declaration of an issued value leads to a later store. -/
theorem advances_declare (issued : value.Issued ledger)
    (declared : Run.declare scope name value machine = .ok () after) :
    Advances ledger machine.store [] ledger after.store := by
  cases declared
  exact .closed .nil (sound.declare issued) (machine.store.precedes_declare scope name value)
    (by simp)

/-- An echo leaves the store and the ledger as they are. -/
theorem advances_echo (echoed : Run.echo value machine = .ok () after) :
    Advances ledger machine.store [.evaluated value] ledger after.store := by
  rw [store_of_echo echoed]
  exact .closed (.evaluated .nil) sound (.refl _) (by simp)

/-- A native leaves the store and the ledger as they are. -/
theorem advances_native {native : Native} {arguments : List Value} :
    Advances ledger machine.store (native.prints arguments) ledger
      (machine.callNative native arguments).2.store := by
  rw [Machine.callNative_store]
  have printed (text : Value → String) : Advances ledger machine.store
      (arguments.map fun value => .printed (text value)) ledger machine.store := by
    apply Advances.closed _ sound (.refl _) (by simp)
    induction arguments with
    | nil => exact .nil
    | cons value rest inductionHypothesis => exact .printed inductionHypothesis
  cases native with
  | print | println => exact printed _
  | clock | double => exact .refl sound

/-- A new scope leads to a later store, where it is inside its parent. -/
theorem advances_newScope {parent : Nat} (inside : parent < machine.store.scopes.size)
    (opened : Run.newScope parent machine = .ok scope after) :
    Advances ledger machine.store [.opened scope parent] ledger after.store ∧
      scope < after.store.scopes.size := by
  cases opened
  have new : machine.store.scopes.size < (machine.store.newScope parent).2.scopes.size :=
    Nat.lt_of_lt_of_eq (Nat.lt_succ_self _) (machine.store.size_newScope parent).symm
  refine ⟨⟨.opened .nil, sound.newScope inside, machine.store.precedes_newScope parent, ?_⟩, new⟩
  intro scope outer listed
  cases List.mem_singleton.1 listed
  exact ⟨Nat.le_refl _, new, (machine.store.parent?_newScope parent _).trans (if_pos rfl)⟩

/-- An assignment of an issued value leads to a later store. -/
theorem advances_assign {name : Name} {result : Except RuntimeError Unit}
    (issued : value.Issued ledger)
    (assigned : Run.assign scope name value machine = finished result after) :
    Advances ledger machine.store [] ledger after.store ∧ Gives ledger (fun _ => True) result := by
  cases resolved : machine.store.resolve? name.text scope with
  | none =>
      rw [assign_of_none resolved] at assigned
      obtain ⟨rfl, rfl⟩ := of_fail assigned
      exact ⟨.refl sound, fun value absent => absurd absent (by simp [Fault.values])⟩
  | some found =>
      rw [assign_of_some resolved] at assigned
      have given : finished (.ok ()) _ = finished result after := assigned
      obtain ⟨rfl, rfl⟩ := finished_inj given
      exact ⟨advances_declare sound issued rfl, trivial⟩

/-- Parameters that are bound to issued values lead to a later store. -/
theorem advances_bindParameters {names : List Name} {values : List Value}
    (issued : ∀ value ∈ values, value.Issued ledger)
    (bound : bindParameters scope names values machine = .ok () after) :
    Advances ledger machine.store [] ledger after.store := by
  induction names generalizing values machine with
  | nil =>
      cases bound
      exact .refl sound
  | cons name names inductionHypothesis =>
      cases values with
      | nil =>
          cases bound
          exact .refl sound
      | cons value values =>
          have first : Advances ledger machine.store [] ledger
              (machine.store.declare scope name.text value) :=
            advances_declare sound (issued value (by simp)) rfl
          have others : ∀ other ∈ values, other.Issued ledger :=
            fun other listed => issued other (by simp [listed])
          exact first.trans (inductionHypothesis first.sound others bound)

/-- A declaration adds the next entry. -/
theorem advances_func {function : Callable} {middle : Machine}
    (placed : function.Placed machine.store)
    (made : Run.newFunction function machine = .ok value middle)
    (bound : Run.declare scope name value middle = .ok () after) :
    Advances ledger machine.store [.declared value machine.store] (ledger ++ [function])
      after.store := by
  have fresh : value = .callable function ledger.length := by
    cases made
    exact sound.newFunction_value function
  have first : middle.store.Sound (ledger ++ [function]) ∧ machine.store.Precedes middle.store ∧
      value.Issued (ledger ++ [function]) := by
    cases made
    exact ⟨sound.newFunction placed, machine.store.precedes_newFunction function,
      sound.newFunction_issued function⟩
  obtain ⟨kept, precedes, issued⟩ := first
  have second := advances_declare kept issued bound
  subst fresh
  exact .closed (.declared sound .nil) second.sound (precedes.trans second.precedes) (by simp)

end Primitives

/-- From a well-formed store, a run leads to a well-formed store, and what it gives is in the ledger
then. -/
theorem Runs.advances {α : Type} {task : Task α} {machine after : Machine}
    {result : Except RuntimeError α} {events : List Event}
    (runs : Runs task machine result events after) {ledger : List Callable}
    (sound : machine.store.Sound ledger) (fits : task.Fits ledger machine.store) :
    ∃ later, Advances ledger machine.store events later after.store ∧
      Gives later (task.Good later) result := by
  -- The ledger only grows, so what the first part of a run gives is still in it after the others.
  induction runs generalizing ledger with
  | @constant _ value _ _ =>
      refine ⟨ledger, .refl sound, ?_⟩
      cases value <;> trivial
  | reference => exact ⟨ledger, .refl sound, .blame sound.get_issued⟩
  | omitted => exact ⟨ledger, .refl sound, trivial⟩
  | noExpressions => exact ⟨ledger, .refl sound, fun _ absent => absurd absent List.not_mem_nil⟩
  | noStatements => exact ⟨ledger, .refl sound, fits.2⟩
  | group _ inner => exact inner sound fits
  | given _ expression => exact expression sound fits
  | while_ _ loop => exact loop sound fits
  | binaryFails _ first | logicFails _ first | assignFails _ first | calleeFails _ first
  | expressionsFail _ first | expressionFails _ first | conditionFails _ first | letFails _ first
  | loopConditionFails _ first =>
      exact first sound fits
  | unary _ operand =>
      obtain ⟨later, advances, gives⟩ := operand sound fits
      exact ⟨later, advances, gives.bind_blame fun _ issued => UnaryOperator.apply_issued _ issued⟩
  | binary _ _ left right =>
      obtain ⟨later, first, issued⟩ := left sound fits
      obtain ⟨last, second, gives⟩ := right first.sound (first.inside fits)
      exact ⟨last, first.trans second, gives.bind_blame fun _ also =>
        BinaryOperator.apply_issued _ (second.issued issued) also⟩
  | logicDecided _ _ left =>
      obtain ⟨later, advances, -⟩ := left sound fits
      exact ⟨later, advances, trivial⟩
  | logic _ _ _ left right =>
      obtain ⟨later, first, -⟩ := left sound fits
      obtain ⟨last, second, gives⟩ := right first.sound (first.inside fits)
      exact ⟨last, first.trans second, gives.map fun _ _ => trivial⟩
  | assign _ assigned value =>
      obtain ⟨later, first, issued⟩ := value sound fits
      obtain ⟨second, gives⟩ := advances_assign first.sound issued assigned
      have both := first.trans second
      rw [List.append_nil] at both
      exact ⟨later, both, gives.map fun _ _ => issued⟩
  | invalidCallee _ _ callee =>
      obtain ⟨later, advances, issued⟩ := callee sound fits
      refine ⟨later, advances, fun value listed => ?_⟩
      rw [List.mem_singleton.1 listed]
      exact issued
  | argumentsFail _ _ callee arguments =>
      obtain ⟨later, first, -⟩ := callee sound fits
      obtain ⟨last, second, gives⟩ := arguments first.sound (first.inside fits)
      exact ⟨last, first.trans second, gives⟩
  | argumentCount _ _ _ callee arguments =>
      obtain ⟨later, first, -⟩ := callee sound fits
      obtain ⟨last, second, -⟩ := arguments first.sound (first.inside fits)
      exact ⟨last, first.trans second, fun _ absent => absurd absent List.not_mem_nil⟩
  | native _ _ _ callee arguments =>
      obtain ⟨later, first, -⟩ := callee sound fits
      obtain ⟨last, second, issued⟩ := arguments first.sound (first.inside fits)
      exact ⟨last, (first.trans second).trans (advances_native second.sound),
        .blame (Machine.callNative_issued _ _ issued)⟩
  | closure _ _ _ _ callee arguments body =>
      obtain ⟨later, first, found⟩ := callee sound fits
      obtain ⟨last, second, issued⟩ := arguments first.sound (first.inside fits)
      -- The callee was found before the arguments were evaluated, and its scope is still there.
      have placed := second.sound.placed_of_issued (second.issued found)
      obtain ⟨final, third, gives⟩ := body second.sound ⟨placed, issued⟩
      exact ⟨final, (first.trans second).trans third, gives⟩
  | expressions _ _ expression rest =>
      obtain ⟨later, first, issued⟩ := expression sound fits
      obtain ⟨last, second, gives⟩ := rest first.sound (first.inside fits)
      refine ⟨last, first.trans second, gives.map fun values all value listed => ?_⟩
      rcases List.mem_cons.1 listed with rfl | listed
      · exact second.issued issued
      · exact all value listed
  | call opened bound _ body =>
      obtain ⟨first, inside⟩ := advances_newScope sound fits.1 opened
      have second := advances_bindParameters first.sound fits.2 bound
      obtain ⟨later, third, gives⟩ := body second.sound ⟨second.inside inside, trivial⟩
      exact ⟨later, (first.trans second).trans third, gives.map fun _ issued => issued⟩
  | expression _ echoed expression =>
      obtain ⟨later, advances, issued⟩ := expression sound fits
      exact ⟨later, advances.trans (advances_echo advances.sound echoed), issued⟩
  | success _ _ _ condition branch | failure _ _ _ condition branch =>
      obtain ⟨later, first, -⟩ := condition sound fits
      obtain ⟨last, second, gives⟩ := branch first.sound (first.inside fits)
      exact ⟨last, first.trans second, gives⟩
  | noFailure _ _ condition | loopEnds _ _ condition =>
      obtain ⟨later, advances, -⟩ := condition sound fits
      exact ⟨later, advances, trivial⟩
  | @func scope name parameters body machine _ _ _ made bound =>
      have placed : (Callable.closure ⟨name, parameters, body, scope⟩).Placed machine.store := fits
      exact ⟨_, advances_func sound placed made bound, trivial⟩
  | let_ _ bound initial =>
      obtain ⟨later, first, issued⟩ := initial sound fits
      have both := first.trans (advances_declare first.sound issued bound)
      rw [List.append_nil] at both
      exact ⟨later, both, trivial⟩
  | return_ _ value =>
      obtain ⟨later, advances, gives⟩ := value sound fits
      exact ⟨later, advances, gives.map fun _ issued => issued⟩
  | block opened _ body =>
      obtain ⟨first, inside⟩ := advances_newScope sound fits opened
      obtain ⟨later, second, gives⟩ := body first.sound ⟨inside, trivial⟩
      exact ⟨later, first.trans second, gives⟩
  | statementsFail _ first | statementsReturn _ first => exact first sound fits.1
  | statements _ _ statement rest =>
      obtain ⟨later, first, issued⟩ := statement sound fits.1
      obtain ⟨last, second, gives⟩ := rest first.sound ⟨first.inside fits.1, issued⟩
      exact ⟨last, first.trans second, gives⟩
  | loopFails _ _ _ condition body | loopReturns _ _ _ condition body =>
      obtain ⟨later, first, -⟩ := condition sound fits
      obtain ⟨last, second, gives⟩ := body first.sound (first.inside fits)
      exact ⟨last, first.trans second, gives⟩
  | loopGoesOn _ _ _ _ condition body rest =>
      obtain ⟨later, first, -⟩ := condition sound fits
      obtain ⟨last, second, -⟩ := body first.sound (first.inside fits)
      obtain ⟨final, third, gives⟩ := rest second.sound (second.inside (first.inside fits))
      exact ⟨final, (first.trans second).trans third, gives⟩

/-- The statements of a script lead from store to store. -/
theorem Machine.Recounts.advances {machine after : Machine} {trees : List Statement}
    {errors : List RuntimeError} {events : List Event}
    (recounts : machine.Recounts trees errors events after) {ledger : List Callable}
    (sound : machine.store.Sound ledger) :
    ∃ later, Advances ledger machine.store events later after.store := by
  induction recounts generalizing ledger with
  | nil => exact ⟨ledger, .refl sound⟩
  | cons runs _ inductionHypothesis =>
      obtain ⟨later, first, -⟩ := runs.advances sound sound.rooted
      obtain ⟨last, second⟩ := inductionHypothesis first.sound
      exact ⟨last, first.trans second⟩

end Offside
