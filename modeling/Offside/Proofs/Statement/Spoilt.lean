/-
This file proves that a token too many in the header of an `if` or a `while` costs this statement
and no other, and that only its `else` is a second mistake.
-/

import Offside.Proofs.Seam.Reading
import Offside.Proofs.Statement.Budget
import Offside.Proofs.Statement.Guarded

namespace Offside.Parser

open Cursor Grammar

/-- The run from the cursor gives this value, leaves the rest and adds these errors. -/
def Reports {α : Type} (cursor : Cursor) (errors : List SyntaxError) (value : α)
    (rest : List Token) (found : α) (after : Cursor) : Prop :=
  found = value ∧ after.rest = rest ∧ after.errors = cursor.errors ++ errors

/-- The cursor comes to the extra token at this position after these tokens, and has at most so many
tokens left. -/
structure Nears (extra : Token) (later : List Token) (position limit : Nat) (before : List Token)
    (cursor : Cursor) : Prop where
  within : cursor.Within limit
  rest : cursor.rest = before ++ extra :: later
  position : cursor.position + before.length = position

section Runs

variable {extra : Token} {later before rest : List Token} {guard : Guard}
  {position limit depth budget : Nat} {cursor place : Cursor}

namespace Nears

variable {start : List Token}

/-- A cursor that moves on still comes to the extra token. -/
theorem onward (nears : Nears extra later position limit start cursor)
    (advances : cursor.Advances place) (here : place.rest = before ++ extra :: later) :
    Nears extra later position limit before place where
  within := nears.within.later advances
  rest := here
  position := by
    have total := advances.total
    have stands := nears.position
    rw [here, nears.rest, List.length_append, List.length_append] at total
    omega

/-- Past at least one token, the limit is lower. -/
theorem inside {token : Token} {used : List Token}
    (nears : Nears extra later position (limit + 1) start cursor)
    (passes : cursor.Passes (token :: used) place) (here : place.rest = before ++ extra :: later) :
    Nears extra later position limit before place := by
  have shorter := passes.length
  rw [List.length_cons] at shorter
  have within := nears.within.inside passes.advances (by omega)
  exact ⟨within, here, (nears.onward passes.advances here).position⟩

end Nears

/-- A statement that is derived is read, and the cursor moves on. -/
theorem statementWithin_lands {tree : Statement} (derivation : Derives cursor.rest tree rest)
    (within : cursor.Within limit) :
    Ensures (statementWithin limit depth) cursor
      (fun found after => Succeeds cursor tree rest found after ∧ cursor.Advances after)
      fun _ _ => False := by
  obtain ⟨found, after, run, succeeds⟩ :=
    (statementWithin_accepts limit depth derivation within.length).succeeds
  have sound := (statementWithin_sound limit depth cursor within).ok run
  unfold Ensures
  rw [run]
  exact ⟨succeeds, sound.1.advances⟩

/-- A name after a condition is blamed where it stands. -/
theorem header_stumbles {requirement : Requirement} {next : Expression → Token → Parser Statement}
    {word : Token} {tokens : List Token} {condition : Expression}
    (derivation : Assignment tokens condition) (isName : extra.kind = .name)
    (here : cursor.rest = word :: (tokens ++ extra :: later)) :
    Ensures (skip >>= fun _ => expression >>= fun condition =>
      expect (.keyword .then_) requirement >>= next condition) cursor (fun _ _ => False)
      fun error place => cursor.Passes (word :: tokens) place ∧
        error = place.error (.missing requirement extra.kind) := by
  apply skip_step here
  intro second worded remaining
  apply expression_before derivation (by rw [isName]; rfl) remaining
  intro third conditioned last
  have kind := kind_of_rest last
  rw [ensures_bind, ensures_expect, kind]
  refine ⟨fun same => ?_, fun _ => ⟨worded.trans conditioned, rfl⟩⟩
  cases isName.symm.trans same

/-- The header of a guarded statement stumbles at the extra token. -/
theorem guarded_stumbles {tree : Statement} (guarded : Guarded before later tree rest guard)
    (isName : extra.kind = .name) (here : cursor.rest = before ++ extra :: later) :
    Ensures (statementWithin (limit + 1) depth) cursor (fun _ _ => False)
      fun error place => cursor.Passes before place ∧
        error = place.error (.missing guard.requirement extra.kind) := by
  rw [statementWithin, ensures_bind, ensures_here]
  cases guarded with
  | if_ word condition =>
      rw [(kind_of_rest here).trans word]
      exact header_stumbles condition isName here
  | ifElse word condition =>
      rw [(kind_of_rest here).trans word]
      exact header_stumbles condition isName here
  | while_ word condition =>
      rw [(kind_of_rest here).trans word]
      exact header_stumbles condition isName here

theorem closes_of_flat (flat : cursor.kind.isFlat = true) : cursor.closes depth = false := by
  rw [Bool.eq_false_iff, ne_eq, closes_iff]
  rintro (same | ⟨-, same⟩) <;> rw [same] at flat <;> cases flat

/-- Recovery from a token in the middle of a line searches the tokens after it. -/
theorem recover_flat {token : Token} {tokens : List Token} (here : cursor.rest = token :: tokens)
    (flat : token.kind.isFlat = true) (goesOn : token.kind.isTerminator = false) :
    (cursor.recover depth).rest = resume 0 false tokens := by
  have kind := kind_of_rest here
  rw [← kind] at flat
  have noIndent : ¬cursor.kind = .indent := by
    intro same
    rw [same] at flat
    cases flat
  rw [recover_rest (closes_of_flat flat), if_neg noIndent, kind, goesOn, here, List.tail_cons]

/-- A list of statements notes a mistake, and in its next round it goes on where the search through
the tokens ends. -/
structure Resumes (item : Parser Statement) (depth budget : Nat) (cursor : Cursor)
    (error : SyntaxError) (tokens : List Token) (last : Cursor) : Prop where
  run : statements item depth (budget + 1) cursor = statements item depth budget last
  rest : last.rest = resume 0 false tokens
  errors : last.errors = cursor.errors ++ [error]
  advances : cursor.Advances last

/-- After a mistake at a token inside a line, the list goes on where the search ends. -/
theorem resumes_of_error {item : Parser Statement} {error : SyntaxError} {token : Token}
    {tokens : List Token} (goesOn : cursor.closes depth = false)
    (run : item (cursor.mark depth) = .error error place)
    (passes : (cursor.mark depth).Passes before place) (here : place.rest = token :: tokens)
    (flat : token.kind.isFlat = true) (unended : token.kind.isTerminator = false) :
    Resumes item depth budget cursor error tokens ((place.note error).recover depth) where
  run := statements_of_error goesOn run
  rest := recover_flat here flat unended
  errors := by
    rw [recover_errors, note, passes.errors]
    rfl
  advances := (mark_advances cursor depth).trans (passes.advances.trans
    ((note_advances place error).trans (recover_advances _ depth)))

/-- After the header of a guarded statement, the list goes on where the search ends. -/
theorem resumes_of_guarded {tree : Statement} (guarded : Guarded before later tree rest guard)
    (isName : extra.kind = .name) (nears : Nears extra later position (limit + 1) before cursor) :
    ∃ last, Resumes (statementWithin (limit + 1) depth) depth budget cursor
      ⟨.missing guard.requirement extra.kind, extra.line, position⟩ later last := by
  have starts : startsLine cursor.kind = true := starts_at guarded.starts nears.rest
  have marked : (cursor.mark depth).rest = before ++ extra :: later := nears.rest
  obtain ⟨error, place, run, passes, rfl⟩ := (guarded_stumbles guarded isName marked).fails
  have here := passes.rest_eq marked
  have stands : place.position = position := passes.position.trans nears.position
  rw [Cursor.error, token_of_rest here, stands] at run
  exact ⟨_, resumes_of_error (closes_of_starts starts) run passes here (by rw [isName]; rfl)
    (by rw [isName]; rfl)⟩

/-- An `else` that stands where a statement should start is blamed and skipped. -/
theorem resumes_of_else {else_ : Token} {tokens : List Token}
    (isElse : else_.kind = .keyword .else_) (here : cursor.rest = else_ :: tokens) :
    ∃ last, Resumes (statementWithin limit depth) depth budget cursor
      ⟨.noExpression else_.kind, else_.line, cursor.position⟩ tokens last := by
  have kind : cursor.kind = else_.kind := kind_of_rest here
  have flat : else_.kind.isFlat = true := by rw [isElse]; rfl
  have stray : startsLine (cursor.mark depth).kind = false := by
    change startsLine cursor.kind = false
    rw [kind, isElse]
    rfl
  have run : statementWithin limit depth (cursor.mark depth) =
      .error (cursor.error (.noExpression cursor.kind)) (cursor.mark depth) :=
    statementWithin_of_stray limit depth stray
  rw [Cursor.error, token_of_rest here, kind] at run
  exact ⟨_, resumes_of_error (closes_of_flat (kind ▸ flat)) run (Passes.refl _) here flat
    (by rw [isElse]; rfl)⟩

/-- A spoilt header costs its own statement: the list goes on with the statement after it. -/
theorem statements_guarded {tree : Statement} (guarded : Guarded before later tree rest guard)
    (isName : extra.kind = .name) (nears : Nears extra later position limit before cursor)
    (enough : cursor.rest.length ≤ budget) :
    ∃ rounds last, statements (statementWithin limit depth) depth budget cursor =
        statements (statementWithin limit depth) depth rounds last ∧
      last.rest = rest ∧ last.errors = cursor.errors ++ guard.errors extra position ∧
      last.rest.length ≤ rounds ∧ cursor.Advances last := by
  have length := congrArg List.length nears.rest
  have within := nears.within.length
  rw [List.length_append, List.length_cons] at length
  obtain ⟨budget, rfl⟩ : ∃ smaller, budget = smaller + 1 := ⟨budget - 1, by omega⟩
  obtain ⟨limit, rfl⟩ : ∃ smaller, limit = smaller + 1 := ⟨limit - 1, by omega⟩
  obtain ⟨last, same, left, errors, advances⟩ := resumes_of_guarded guarded isName nears
  have shorter := guarded.derives.shorter
  rw [List.length_append] at shorter
  cases guarded with
  | if_ _ _ isThen success =>
      rw [resume_then isThen, success.resume_outside] at left
      exact ⟨budget, last, same, left, errors, by rw [left]; omega, advances⟩
  | @ifElse _ then_ _ _ _ inside _ _ _ _ _ _ _ isThen success isElse isNext failure =>
      rw [resume_then isThen, success.resume_outside] at left
      have total := advances.total
      have start := nears.position
      rw [left, nears.rest] at total
      simp only [List.length_append, List.length_cons] at length total start shorter
      obtain ⟨budget, rfl⟩ : ∃ smaller, budget = smaller + 1 := ⟨budget - 1, by omega⟩
      -- The search ended before the `else`, and the next one ends after the second branch.
      obtain ⟨final, again, right, others, further⟩ := resumes_of_else isElse left
      rw [resume_then isNext, failure.resume_outside] at right
      have stands : last.position = position + 1 + (then_ :: inside).length := by
        rw [List.length_cons]
        omega
      rw [errors, stands, List.append_assoc] at others
      exact ⟨budget, final, same.trans again, right, others, by rw [right]; omega,
        advances.trans further⟩
  | while_ _ _ isThen body =>
      rw [resume_then isThen, body.resume_outside] at left
      exact ⟨budget, last, same, left, errors, by rw [left]; omega, advances⟩

/-- The parser reads a statement that holds a spoilt one without it, and adds the errors of its
header. -/
def Spoils (extra : Token) (later : List Token) (guard : Guard) (position limit : Nat)
    (item : Parser Statement) : Prop :=
  ∀ ⦃cursor : Cursor⦄ ⦃before : List Token⦄ ⦃tree pruned : Statement⦄ ⦃rest : List Token⦄,
    Holds later guard before tree pruned rest →
    Nears extra later position limit before cursor →
    Ensures item cursor (Reports cursor (guard.errors extra position) pruned rest)
      fun _ _ => False

/-- A run goes on behind a spoilt statement with the errors of its header. -/
theorem Spoils.ensures {item : Parser Statement} {tree pruned : Statement}
    {good : Statement → Cursor → Prop} {bad : SyntaxError → Cursor → Prop}
    (spoils : Spoils extra later guard position limit item)
    (holds : Holds later guard before tree pruned rest)
    (nears : Nears extra later position limit before cursor)
    (continues : ∀ after : Cursor, after.rest = rest →
      after.errors = cursor.errors ++ guard.errors extra position → good pruned after) :
    Ensures item cursor good bad := by
  apply (spoils holds nears).mono
  · rintro found after ⟨rfl, left, errors⟩
    exact continues after left errors
  · exact fun _ _ impossible => impossible.elim

/-- Before the extra token, statements are read as they are without it. -/
theorem Nears.derives {start : List Token} {tree : Statement} {sort : Kind → Bool}
    (nears : Nears extra later position limit (start ++ before) cursor)
    (derivation : Derives (start ++ (before ++ later)) tree (before ++ later))
    (starts : StartsWith sort before) : Derives cursor.rest tree (before ++ extra :: later) := by
  obtain ⟨token, tokens, rfl, -⟩ := starts
  obtain ⟨used, same, further⟩ := derivation.exchange (List.cons_ne_nil _ _)
  obtain rfl := List.append_cancel_right same
  rw [nears.rest, List.append_assoc]
  exact further _ rfl

/-- A list with a spoilt statement is read without it. -/
theorem statements_spoilt {trees pruned : List Statement} (isName : extra.kind = .name)
    (spoils : Spoils extra later guard position limit (statementWithin limit depth))
    (holds : ListHolds later guard before trees pruned rest)
    (nears : Nears extra later position limit before cursor)
    (enough : cursor.rest.length ≤ budget)
    (closing : headKind rest = .eof ∨ (depth ≠ 0 ∧ headKind rest = .dedent)) :
    Reports cursor (guard.errors extra position) pruned rest
      (statements (statementWithin limit depth) depth budget cursor).1
      (statements (statementWithin limit depth) depth budget cursor).2 := by
  induction budget generalizing cursor before trees pruned with
  | zero =>
      have length := congrArg List.length nears.rest
      rw [List.length_append, List.length_cons] at length
      omega
  | succ budget inductionHypothesis =>
      have starts := starts_at holds.starts nears.rest
      have goesOn : cursor.closes depth = false := closes_of_starts starts
      have accepts := statementWithin_accepts limit depth
      have marked : Nears extra later position limit before (cursor.mark depth) :=
        ⟨nears.within.later (mark_advances cursor depth), nears.rest, nears.position⟩
      have bound := nears.within.length
      cases holds with
      | here guarded others =>
          obtain ⟨rounds, last, same, rfl, errors, room, advances⟩ :=
            statements_guarded guarded isName nears enough
          have within := (nears.within.later advances).length
          obtain ⟨found, left, noErrors⟩ := statements_accept accepts others room within closing
          rw [same]
          exact ⟨found, left, noErrors.trans errors⟩
      | inside tree others =>
          have shorter := tree.derives.shorter
          have length := congrArg List.length nears.rest
          simp only [List.length_append, List.length_cons] at shorter length
          obtain ⟨found, after, run, rfl, rfl, errors⟩ := (spoils tree marked).succeeds
          rw [statements_of_ok goesOn run]
          have room : after.rest.length ≤ budget := by omega
          obtain ⟨same, left, noErrors⟩ := statements_accept accepts others room (by omega) closing
          exact ⟨congrArg (found :: ·) same, left, noErrors.trans errors⟩
      | later first others =>
          have derivation := marked.derives first others.starts
          obtain ⟨found, after, run, ⟨rfl, here, errors⟩, advances⟩ :=
            (statementWithin_lands derivation marked.within).succeeds
          have shorter := derivation.shorter
          rw [← here] at shorter
          have shorter : after.rest.length < cursor.rest.length := shorter
          obtain ⟨same, left, added⟩ :=
            inductionHypothesis others (marked.onward advances here) (by omega)
          rw [statements_of_ok goesOn run]
          refine ⟨congrArg (found :: ·) same, left, added.trans ?_⟩
          rw [errors]
          rfl

/-- A block with a spoilt statement is read without it. -/
theorem block_spoilt {indent : Token} {body pruned : List Statement}
    {good : List Statement → Cursor → Prop} {bad : SyntaxError → Cursor → Prop}
    (isName : extra.kind = .name)
    (spoils : Spoils extra later guard position limit (statementWithin limit (depth + 1)))
    (holds : BlockHolds later guard (indent :: before) body pruned rest)
    (nears : Nears extra later position limit before cursor)
    (continues : ∀ after : Cursor, after.rest = rest →
      after.errors = cursor.errors ++ guard.errors extra position → good pruned after) :
    Ensures (block (statementWithin limit (depth + 1)) (depth + 1) limit) cursor good bad := by
  have enough := nears.within.length
  cases holds with
  | @closed _ dedent _ _ _ _ _ inside isDedent =>
      have closing : headKind (dedent :: rest) = .eof ∨
          (depth + 1 ≠ 0 ∧ headKind (dedent :: rest) = .dedent) :=
        .inr ⟨Nat.succ_ne_zero depth, isDedent⟩
      obtain ⟨rfl, last, errors⟩ := statements_spoilt isName spoils inside nears enough closing
      apply block_step (.inl ⟨dedent, isDedent, last⟩)
      exact fun after left same => continues after left (same.trans errors)
  | ended _ inside =>
      have closing : headKind [] = .eof ∨ (depth + 1 ≠ 0 ∧ headKind [] = .dedent) := .inl rfl
      obtain ⟨rfl, last, errors⟩ := statements_spoilt isName spoils inside nears enough closing
      apply block_step (.inr ⟨last, rfl⟩)
      exact fun after left same => continues after left (same.trans errors)

section Branches

variable {word then_ else_ next : Token} {tokens inside others : List Token}
  {condition : Expression} {success failure pruned : Statement}

/-- A conditional with a spoilt statement in its first branch is read without that. -/
theorem ifStatement_spoilt_first
    (spoils : Spoils extra later guard position limit (statementWithin limit depth))
    (derivation : Assignment tokens condition) (isThen : then_.kind = .keyword .then_)
    (holds : Holds later guard before success pruned (else_ :: next :: others))
    (isElse : else_.kind = .keyword .else_) (isNext : next.kind = .keyword .then_)
    (second : Derives others failure rest)
    (nears : Nears extra later position (limit + 1) (word :: (tokens ++ then_ :: before)) cursor) :
    Ensures (skip >>= fun _ => ifStatement (statementWithin limit depth)) cursor
      (Reports cursor (guard.errors extra position) (.if_ condition pruned (some failure)) rest)
      fun _ _ => False := by
  have here := nears.rest
  simp only [List.cons_append, List.append_assoc] at here
  apply ifStatement_step derivation isThen here
  intro place header started
  have closer := nears.inside header started
  have shorter := holds.derives.shorter
  have length := closer.within.length
  rw [started] at length
  simp only [List.length_append, List.length_cons] at shorter length
  apply spoils.ensures holds closer
  intro middle left errors
  rw [header.errors] at errors
  apply else_step isElse isNext left
  intro third turned begun
  apply (statementWithin_accepts limit depth).ensures second begun (by omega)
  intro after last noErrors
  exact ⟨rfl, last, noErrors.trans (turned.errors.trans errors)⟩

/-- The first branch is read as it is without the extra token. -/
theorem ifStatement_spoilt_second
    (spoils : Spoils extra later guard position limit (statementWithin limit depth))
    (derivation : Assignment tokens condition) (isThen : then_.kind = .keyword .then_)
    (first : Derives (inside ++ else_ :: next :: (before ++ later)) success
      (else_ :: next :: (before ++ later)))
    (isElse : else_.kind = .keyword .else_) (isNext : next.kind = .keyword .then_)
    (holds : Holds later guard before failure pruned rest)
    (nears : Nears extra later position (limit + 1)
      (word :: (tokens ++ then_ :: (inside ++ else_ :: next :: before))) cursor) :
    Ensures (skip >>= fun _ => ifStatement (statementWithin limit depth)) cursor
      (Reports cursor (guard.errors extra position) (.if_ condition success (some pruned)) rest)
      fun _ _ => False := by
  have here := nears.rest
  simp only [List.cons_append, List.append_assoc] at here
  apply ifStatement_step derivation isThen here
  intro place header started
  have closer : Nears extra later position limit (inside ++ else_ :: next :: before) place :=
    nears.inside header (by rw [started]; simp)
  have branch := closer.derives first (.of_kind isElse)
  apply (statementWithin_lands branch closer.within).mono
  · rintro found middle ⟨⟨rfl, left, errors⟩, advances⟩
    have nearer := closer.onward advances left
    apply else_step isElse isNext left
    intro third turned begun
    apply spoils.ensures holds (nearer.onward turned.advances begun)
    intro after last added
    refine ⟨rfl, last, ?_⟩
    rw [added, turned.errors, errors, header.errors]
  · exact fun _ _ impossible => impossible.elim

end Branches

/-- Every budget reads a statement without the spoilt one inside it. -/
theorem statementWithin_spoils (isName : extra.kind = .name) (limit depth : Nat) :
    Spoils extra later guard position limit (statementWithin limit depth) := by
  induction limit generalizing depth with
  | zero =>
      intro cursor before tree pruned rest _ nears
      have within := nears.within.length
      rw [nears.rest, List.length_append, List.length_cons] at within
      omega
  | succ limit inductionHypothesis =>
      intro cursor before tree pruned rest holds nears
      have inner := inductionHypothesis depth
      have item := inductionHypothesis (depth + 1)
      have here := nears.rest
      rw [statementWithin, ensures_bind, ensures_here]
      cases holds with
      | if_ word condition isThen success alone =>
          simp only [List.cons_append, List.append_assoc] at here
          rw [(kind_of_rest here).trans word]
          apply ifStatement_step condition isThen here
          intro place header started
          apply inner.ensures success (nears.inside header started)
          intro after left errors
          rw [header.errors] at errors
          apply accept_stay
          · rwa [kind_eq, left]
          · exact ⟨rfl, left, errors⟩
      | firstBranch word condition isThen success isElse isNext failure =>
          rw [(kind_of_rest here).trans word]
          exact ifStatement_spoilt_first inner condition isThen success isElse isNext failure nears
      | secondBranch word condition isThen success isElse isNext failure =>
          rw [(kind_of_rest here).trans word]
          exact ifStatement_spoilt_second inner condition isThen success isElse isNext failure nears
      | while_ word condition isThen body =>
          simp only [List.cons_append, List.append_assoc] at here
          rw [(kind_of_rest here).trans word]
          apply whileStatement_step condition isThen here
          intro place header started
          apply inner.ensures body (nears.inside header started)
          intro after left errors
          exact ⟨rfl, left, by rw [errors, header.errors]⟩
      | for_ word header isThen body =>
          simp only [List.cons_append, List.append_assoc] at here
          rw [(kind_of_rest here).trans word]
          apply forStatement_step header isThen here
          intro place headed started
          apply inner.ensures body (nears.inside headed started)
          intro after left errors
          exact ⟨rfl, left, by rw [errors, headed.errors]⟩
      | @func _ _ _ _ tokens _ _ _ _ _ _ word isFirst isColon listed isEqual broken body =>
          obtain ⟨indent, inside, rfl, isIndent⟩ := body.starts
          have length := nears.within.length
          simp only [List.cons_append, List.append_assoc] at here
          rw [here] at length
          simp only [List.length_cons, List.length_append] at length
          rw [(kind_of_rest here).trans word]
          apply function_step isFirst isColon listed isEqual broken isIndent here (by omega)
          intro place headed started
          apply block_spoilt isName item body (nears.inside headed started)
          intro after left errors
          exact ⟨rfl, left, by rw [errors, headed.errors]⟩
      | block body =>
          obtain ⟨indent, inside, rfl, isIndent⟩ := body.starts
          rw [(kind_of_rest here).trans isIndent]
          apply skip_step here
          intro place indented started
          rw [ensures_bind]
          apply block_spoilt isName item body (nears.inside indented started)
          intro after left errors
          exact ⟨rfl, left, by rw [errors, indented.errors]⟩

end Runs

end Offside.Parser

namespace Offside

open Cursor Grammar

/-- The program of a script with a spoilt header has every statement but the one of this header. -/
theorem program_spoilt {extra : Token} {tokens before later : List Token} {guard : Guard}
    {trees pruned : List Statement} (isName : extra.kind = .name)
    (whole : script tokens = before ++ extra :: later)
    (holds : ListHolds later guard before trees pruned []) :
    Program.ofTokens tokens = ⟨pruned, guard.errors extra before.length⟩ := by
  have nears : Parser.Nears extra later before.length (ofTokens tokens).rest.length before
      (ofTokens tokens) := ⟨ofTokens_within tokens, whole, Nat.zero_add _⟩
  obtain ⟨same, -, errors⟩ := Parser.statements_spoilt isName
    (Parser.statementWithin_spoils isName _ 0) holds nears (Nat.le_refl _) (.inl rfl)
  exact congrArg₂ Program.mk same errors

/-- A name right before the `then` of an `if` or a `while` in any list of statements, whose branches
are all blocks, costs exactly this statement. The name is blamed, and so is the `else` if there is
one, since the search after the mistake stops at the end of the first branch. -/
theorem readScript_spoilt {source : String} {before after : List Token} {guard : Guard}
    {trees pruned : List Statement} {extra stop : Token} (clean : (scan source).errors = [])
    (tokens : (scan source).tokens = before ++ (after ++ [stop]))
    (holds : ListHolds after guard before trees pruned []) (isName : extra.kind = .name) :
    readScript source = .ok trees ∧
      Program.ofTokens (before ++ extra :: (after ++ [stop])) =
        ⟨pruned, guard.errors extra before.length⟩ := by
  obtain ⟨last, ends, whole⟩ := scan_script source
  have cut : (before ++ after) ++ [stop] = script (scan source).tokens ++ [last] := by
    rw [List.append_assoc, ← tokens, ← whole]
  obtain ⟨held, same⟩ := List.append_inj' cut rfl
  obtain rfl := List.singleton_inj.1 same
  have goesOn := script_goesOn (scan source).tokens
  rw [← held] at goesOn
  obtain ⟨first, second⟩ := List.forall_mem_append.1 goesOn
  have named : extra.kind ≠ .eof := by rw [isName]; decide
  have spoilt : script (before ++ extra :: (after ++ [stop])) = before ++ extra :: after := by
    have none : script [stop] = [] := by simp [script, isEnd, ends]
    rw [script_append first, ← List.cons_append,
      script_append (List.forall_mem_cons.2 ⟨named, second⟩), none, List.append_nil]
  refine ⟨readScript_of_sequence clean ?_, program_spoilt isName spoilt holds⟩
  rw [← held]
  exact holds.derives

/-- In the body of a function, a spoilt loop is lost, and the statements around it are not. -/
theorem readScript_spoilt_in_function :
    let source := "func f: =\n    b\n    while a then\n        c\n    d\n"
    let reference (name : String) (line : Nat) : Statement :=
      .expression (.reference ⟨name, line⟩)
    let loop : Statement := .while_ (.reference ⟨"a", 3⟩) (.block [reference "c" 4])
    let extra : Token := ⟨.name, "x", some (.string "x"), 3⟩
    let tokens := (scan source).tokens
    (scan source).errors = [] ∧
      readScript source = .ok [.func ⟨"f", 1⟩ [] [reference "b" 2, loop, reference "d" 5]] ∧
      Program.ofTokens (tokens.take 10 ++ extra :: tokens.drop 10) =
        ⟨[.func ⟨"f", 1⟩ [] [reference "b" 2, reference "d" 5]],
          [⟨.missing .thenAfterWhile .name, 3, 10⟩]⟩ := by
  intro source reference loop extra tokens
  let name (text : String) (line : Nat) : Token := ⟨.name, text, some (.string text), line⟩
  let symbol (kind : Symbol) (text : String) : Token := ⟨.symbol kind, text, none, 1⟩
  let header : List Token := [⟨.keyword .while_, "while", none, 3⟩, name "a" 3]
  let before : List Token :=
    [⟨.keyword .func, "func", none, 1⟩, name "f" 1, symbol .colon ":", symbol .equal "=",
      .layout .newline 1, .layout .indent 2, name "b" 2, .layout .newline 2] ++ header
  let after : List Token :=
    [⟨.keyword .then_, "then", none, 3⟩, .layout .indent 4, name "c" 4, .layout .newline 4,
      .layout .dedent 5, name "d" 5, .layout .newline 5, .layout .dedent 6]
  have pieces : Piece.split source.toList =
      [.lexeme (.keyword .func) ['f', 'u', 'n', 'c'], .blank ' ', .lexeme .name ['f'],
        .lexeme (.symbol .colon) [':'], .blank ' ', .lexeme (.symbol .equal) ['='], .lineBreak,
        .blank ' ', .blank ' ', .blank ' ', .blank ' ', .lexeme .name ['b'], .lineBreak,
        .blank ' ', .blank ' ', .blank ' ', .blank ' ',
        .lexeme (.keyword .while_) ['w', 'h', 'i', 'l', 'e'], .blank ' ', .lexeme .name ['a'],
        .blank ' ', .lexeme (.keyword .then_) ['t', 'h', 'e', 'n'], .lineBreak,
        .blank ' ', .blank ' ', .blank ' ', .blank ' ', .blank ' ', .blank ' ', .blank ' ',
        .blank ' ', .lexeme .name ['c'], .lineBreak,
        .blank ' ', .blank ' ', .blank ' ', .blank ' ', .lexeme .name ['d'], .lineBreak] := by
    change Piece.split "func f: =\n    b\n    while a then\n        c\n    d\n".toList = _
    rw [Piece.split_eq_splitWithin (Nat.le_refl 49)]
    rfl
  have clean : (scan source).errors = [] := by
    unfold scan
    rw [pieces]
    rfl
  have whole : (scan source).tokens = before ++ (after ++ [.layout .eof 6]) := by
    unfold scan
    rw [pieces]
    rfl
  have referred (text : String) (line : Nat) :
      Assignment [name text line] (.reference ⟨text, line⟩) :=
    .chain (.single (.single (.single (.single (.single (.single (.operand (.call
      (.primary (.reference rfl))))))))))
  have line (text : String) (number : Nat) (rest : List Token) :
      Derives (name text number :: .layout .newline number :: rest) (reference text number) rest :=
    .simple (.intro (referred text number) rfl)
  have guarded : Guarded header after loop _ .while_ :=
    .while_ rfl (referred "a" 3) rfl (.closed rfl (.cons (line "c" 4 _) .nil) rfl)
  have listed : ListHolds after .while_ ([name "b" 2, .layout .newline 2] ++ header)
      [reference "b" 2, loop, reference "d" 5]
      [reference "b" 2, reference "d" 5] [.layout .dedent 6] :=
    .later (line "b" 2 _) (.here guarded (.cons (line "d" 5 _) .nil))
  have holds : ListHolds after .while_ before
      [.func ⟨"f", 1⟩ [] [reference "b" 2, loop, reference "d" 5]]
      [.func ⟨"f", 1⟩ [] [reference "b" 2, reference "d" 5]] [] :=
    .inside (@Holds.func _ _ _ _ _ _ [] [.layout .newline 1] _ _ _ _ _ rfl rfl rfl .none rfl
      (.present rfl) (.closed rfl listed rfl)) .nil
  obtain ⟨read, spoilt⟩ := @readScript_spoilt _ _ _ _ _ _ extra _ clean whole holds rfl
  refine ⟨clean, read, ?_⟩
  rw [show tokens = _ from whole]
  exact spoilt

/-- The `else` of a spoilt `if` is a second mistake, though no statement is lost but this one. -/
theorem program_spoilt_else :
    let source := "if a then\n    b\nelse then\n    c\n"
    let spoilt := "if a x then\n    b\nelse then\n    c\n"
    let reference (name : String) (line : Nat) : Statement :=
      .expression (.reference ⟨name, line⟩)
    let extra : Token := ⟨.name, "x", some (.string "x"), 1⟩
    readScript source = .ok [.if_ (.reference ⟨"a", 1⟩) (.block [reference "b" 2])
        (some (.block [reference "c" 4]))] ∧
      (scan spoilt).tokens = (scan source).tokens.take 2 ++ extra :: (scan source).tokens.drop 2 ∧
      Program.ofTokens (scan spoilt).tokens =
        ⟨[], [⟨.missing .thenAfterIf .name, 1, 2⟩, ⟨.noExpression (.keyword .else_), 3, 8⟩]⟩ := by
  intro source spoilt reference extra
  have pieces : Piece.split source.toList =
      [.lexeme (.keyword .if_) ['i', 'f'], .blank ' ', .lexeme .name ['a'],
        .blank ' ', .lexeme (.keyword .then_) ['t', 'h', 'e', 'n'], .lineBreak,
        .blank ' ', .blank ' ', .blank ' ', .blank ' ', .lexeme .name ['b'], .lineBreak,
        .lexeme (.keyword .else_) ['e', 'l', 's', 'e'], .blank ' ',
        .lexeme (.keyword .then_) ['t', 'h', 'e', 'n'], .lineBreak,
        .blank ' ', .blank ' ', .blank ' ', .blank ' ', .lexeme .name ['c'], .lineBreak] := by
    change Piece.split "if a then\n    b\nelse then\n    c\n".toList = _
    rw [Piece.split_eq_splitWithin (Nat.le_refl 32)]
    rfl
  have others : Piece.split spoilt.toList =
      [.lexeme (.keyword .if_) ['i', 'f'], .blank ' ', .lexeme .name ['a'], .blank ' ',
        .lexeme .name ['x'],
        .blank ' ', .lexeme (.keyword .then_) ['t', 'h', 'e', 'n'], .lineBreak,
        .blank ' ', .blank ' ', .blank ' ', .blank ' ', .lexeme .name ['b'], .lineBreak,
        .lexeme (.keyword .else_) ['e', 'l', 's', 'e'], .blank ' ',
        .lexeme (.keyword .then_) ['t', 'h', 'e', 'n'], .lineBreak,
        .blank ' ', .blank ' ', .blank ' ', .blank ' ', .lexeme .name ['c'], .lineBreak] := by
    change Piece.split "if a x then\n    b\nelse then\n    c\n".toList = _
    rw [Piece.split_eq_splitWithin (Nat.le_refl 34)]
    rfl
  refine ⟨?_, ?_, ?_⟩
  · unfold readScript scan
    rw [pieces]
    rfl
  · unfold scan
    rw [pieces, others]
    rfl
  · unfold scan
    rw [others]
    rfl

end Offside
