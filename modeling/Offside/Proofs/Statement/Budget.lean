/-
This file proves that the budgets of the statement parser never run out, that it calls itself only
where fewer tokens are left, and that each statement of a list brings the list forward.
-/

import Offside.Proofs.Expression.Budget
import Offside.Proofs.Statement.Sound

namespace Offside.Parser

open Cursor Grammar

variable {α β : Type} {cursor : Cursor} {limit : Nat}

/-- Fewer tokens are left, and none of them is an end. -/
structure Inside (limit : Nat) (cursor : Cursor) : Prop where
  length : cursor.rest.length < limit
  goesOn : ∀ token ∈ cursor.rest, token.kind ≠ .eof

/-- A cursor that moves on stays inside the limit. -/
theorem Inside.later {after : Cursor} (inside : Inside limit cursor)
    (moved : after.rest <:+ cursor.rest) : Inside limit after where
  length := Nat.lt_of_le_of_lt moved.length_le inside.length
  goesOn token member := inside.goesOn token (moved.subset member)

/-- A cursor inside a limit is within the bound below it. -/
theorem Inside.within {bound : Nat} (inside : Inside limit cursor) (room : limit ≤ bound + 1) :
    cursor.Within bound :=
  ⟨by have := inside.length; omega, inside.goesOn⟩

/-- The parsers agree wherever fewer tokens are left. -/
def AgreeInside (limit : Nat) (left right : Parser α) : Prop :=
  ∀ cursor : Cursor, Inside limit cursor → Agree left right cursor

namespace AgreeInside

theorem refl {parser : Parser α} (onward : ∀ cursor, Onward parser cursor) :
    AgreeInside limit parser parser := fun cursor _ => Agree.refl (onward cursor)

theorem pure (value : α) : AgreeInside limit (pure value : Parser α) (Pure.pure value) :=
  fun cursor _ => Agree.pure value cursor

/-- Sequences agree inside when their parts do. -/
theorem bind {left right : Parser α} {next other : α → Parser β}
    (start : AgreeInside limit left right)
    (further : ∀ value, AgreeInside limit (next value) (other value)) :
    AgreeInside limit (left >>= next) (right >>= other) :=
  fun cursor inside => (start cursor inside).bind fun value after moved =>
    further value after (inside.later moved)

theorem ite {condition : Prop} [Decidable condition] {left right first second : Parser α}
    (yes : AgreeInside limit left right) (no : AgreeInside limit first second) :
    AgreeInside limit (if condition then left else first)
      (if condition then right else second) := by
  split
  · exact yes
  · exact no

end AgreeInside

theorem onward_accept (kind : Kind) (cursor : Cursor) : Onward (accept kind) cursor := by
  rw [Onward, ensures_accept]
  exact ⟨fun _ => next_suffix cursor, fun _ => List.suffix_rfl⟩

/-- The condition of a counting loop only moves on. -/
theorem onward_forCondition (cursor : Cursor) : Onward forCondition cursor := by
  apply (forCondition_ensures cursor).mono
  · rintro tree after ⟨used, walks, -⟩
    exact ⟨used, walks.rest.symm⟩
  · rintro error after ⟨before, place, between, -, start, further, -⟩
    exact ⟨before ++ between, (start.trans further).rest.symm⟩

section Statements

variable {inner other : Parser Statement} {budget larger depth : Nat}

/-- Conditionals agree when the statements inside them do. -/
theorem ifStatement_agree (agree : AgreeInside limit inner other) :
    AgreeInside limit (ifStatement inner) (ifStatement other) := by
  apply (AgreeInside.refl expression_reads.onward).bind
  intro condition
  apply (AgreeInside.refl (onward_expect _ _)).bind
  intro _
  apply agree.bind
  intro success
  apply (AgreeInside.refl (onward_accept _)).bind
  intro hasElse
  apply AgreeInside.ite
  · apply (AgreeInside.refl (onward_expect _ _)).bind
    intro _
    apply agree.bind
    exact fun failure => .pure _
  · exact .pure _

/-- Loops agree when the statements inside them do. -/
theorem whileStatement_agree (agree : AgreeInside limit inner other) :
    AgreeInside limit (whileStatement inner) (whileStatement other) := by
  apply (AgreeInside.refl expression_reads.onward).bind
  intro condition
  apply (AgreeInside.refl (onward_expect _ _)).bind
  intro _
  apply agree.bind
  exact fun body => .pure _

/-- Counting loops agree when the statements inside them do. -/
theorem forStatement_agree (agree : AgreeInside limit inner other) :
    AgreeInside limit (forStatement inner) (forStatement other) := by
  apply (AgreeInside.refl (onward_accept _)).bind
  intro parenthesized
  apply (AgreeInside.refl forInitializer_reads.onward).bind
  intro initializer
  apply (AgreeInside.refl onward_forCondition).bind
  intro condition
  apply (AgreeInside.refl (onward_expect _ _)).bind
  intro _
  apply (AgreeInside.refl forIncrement_reads.onward).bind
  intro increment
  have body : AgreeInside limit
      (expect (.keyword .then_) .thenAfterFor >>= fun _ => inner >>= fun body =>
        Pure.pure (Statement.forLoop initializer condition increment body))
      (expect (.keyword .then_) .thenAfterFor >>= fun _ => other >>= fun body =>
        Pure.pure (Statement.forLoop initializer condition increment body)) := by
    apply (AgreeInside.refl (onward_expect _ _)).bind
    intro _
    apply agree.bind
    exact fun body => .pure _
  apply AgreeInside.ite
  · exact (AgreeInside.refl (onward_expect _ _)).bind fun _ => body
  · exact body

/-- Where no token is left, the parameter is missing. -/
theorem parameters_of_empty (budget : Nat) (empty : cursor.rest = []) :
    parameters budget cursor = .error (cursor.error (.parameter .eof)) cursor := by
  have ends := kind_of_empty empty
  have still : cursor.next = cursor := by rw [next, empty]
  cases budget with
  | zero =>
      change EStateM.Result.error (cursor.error (.parameter cursor.kind)) cursor = _
      rw [ends]
  | succ budget => simp [parameters, here, skip, blameAt, bind, EStateM.bind, ends, still]

/-- Lists of parameters agree for every budget that covers the rest. -/
theorem parameters_agree (enough : cursor.rest.length ≤ budget) (more : budget ≤ larger) :
    Agree (parameters budget) (parameters larger) cursor := by
  induction budget generalizing cursor larger with
  | zero =>
      have empty : cursor.rest = [] := List.eq_nil_of_length_eq_zero (by omega)
      exact Agree.of_error (parameters_of_empty 0 empty) (parameters_of_empty larger empty)
  | succ budget inductionHypothesis =>
      obtain ⟨larger, rfl⟩ : ∃ smaller, larger = smaller + 1 := ⟨larger - 1, by omega⟩
      unfold parameters
      apply Agree.here
      by_cases isName : cursor.kind = .name
      · simp only [if_pos isName]
        apply Agree.skip (by rw [isName]; simp)
        intro shorter
        apply Agree.accept (by simp)
        · intro further
          apply (inductionHypothesis (by omega) (by omega)).bind
          exact fun _ after _ => Agree.pure _ after
        · exact Agree.pure _ cursor.next
      · simp only [if_neg isName]
        exact Agree.refl (next_suffix cursor)

/-- Functions agree when their bodies do. -/
theorem function_agree {body body' : Parser (List Statement)}
    (agree : AgreeInside limit body body') (enough : limit ≤ budget + 1) (more : budget ≤ larger) :
    AgreeInside limit (function body budget) (function body' larger) := by
  apply (AgreeInside.refl (onward_expect _ _)).bind
  intro name
  apply (AgreeInside.refl (onward_expect _ _)).bind
  intro _
  have rest (names : List Name) : AgreeInside limit
      (expect (.symbol .equal) .equalAfterParameters >>= fun _ => accept .newline >>= fun _ =>
        expect .indent .functionBlock >>= fun _ => body >>= fun statements =>
          Pure.pure (Statement.func (.ofToken name) names statements))
      (expect (.symbol .equal) .equalAfterParameters >>= fun _ => accept .newline >>= fun _ =>
        expect .indent .functionBlock >>= fun _ => body' >>= fun statements =>
          Pure.pure (Statement.func (.ofToken name) names statements)) := by
    apply (AgreeInside.refl (onward_expect _ _)).bind
    intro _
    apply (AgreeInside.refl (onward_accept _)).bind
    intro _
    apply (AgreeInside.refl (onward_expect _ _)).bind
    intro _
    apply agree.bind
    exact fun statements => .pure _
  intro cursor inside
  apply Agree.peek
  dsimp only
  split
  · exact rest [] cursor inside
  · have length := inside.length
    exact (parameters_agree (by omega) more).bind fun names after moved =>
      rest names after (inside.later moved)

/-- Each statement of a list brings the list forward, even if it fails. -/
theorem attempt_forward {item : Parser Statement} {bound : Nat} (sound : Sound depth bound item)
    (within : cursor.Within bound) (goesOn : cursor.closes depth = false) :
    Advances cursor (attempt item depth (cursor.mark depth)).2 ∧
      (attempt item depth (cursor.mark depth)).2.rest.length < cursor.rest.length := by
  have spec := sound (cursor.mark depth) (within.later (mark_advances cursor depth))
  obtain ⟨tree, after, run, tried⟩ | ⟨error, after, run, tried⟩ :=
    attempt_cases item depth (cursor.mark depth)
  · rw [tried]
    obtain ⟨goes, shorter, -⟩ := spec.ok run
    exact ⟨(mark_advances cursor depth).trans goes.advances, shorter⟩
  · rw [tried]
    have start := (mark_advances cursor depth).trans (spec.error run).1.advances
    refine ⟨?_, recover_shorter error goesOn start⟩
    exact start.trans ((note_advances after error).trans (recover_advances _ depth))

/-- A cursor that moves on leaves an end of the rest. -/
theorem suffix_of_advances {after : Cursor} (advances : Advances cursor after) :
    after.rest <:+ cursor.rest := by
  obtain ⟨used, rest, -⟩ := advances.passed
  exact ⟨used, rest.symm⟩

/-- Lists of statements agree when their statements do. -/
theorem statements_agree {item : Parser Statement} {bound : Nat} (sound : Sound depth bound item)
    (room : limit ≤ bound + 1) (agree : AgreeInside limit other item) (inside : Inside limit cursor)
    (enough : cursor.rest.length ≤ budget) (more : budget ≤ larger) :
    statements other depth budget cursor = statements item depth larger cursor := by
  induction budget generalizing cursor larger with
  | zero =>
      have empty : cursor.rest = [] := List.eq_nil_of_length_eq_zero (by omega)
      have ends : (cursor.mark depth).closes depth = true :=
        closes_iff.2 (.inl (kind_of_empty empty))
      cases larger with
      | zero => rfl
      | succ larger => simp only [statements, ends, if_true]
  | succ budget inductionHypothesis =>
      obtain ⟨larger, rfl⟩ : ∃ smaller, larger = smaller + 1 := ⟨larger - 1, by omega⟩
      rw [statements, statements]
      cases ends : (cursor.mark depth).closes depth with
      | true => rfl
      | false =>
          obtain ⟨advances, shorter⟩ := attempt_forward sound (inside.within room) ends
          have same : attempt other depth (cursor.mark depth) =
              attempt item depth (cursor.mark depth) := by
            have marked := (agree (cursor.mark depth) (inside.later List.suffix_rfl)).same
            rw [attempt, attempt, marked]
          have others := inductionHypothesis (inside.later (suffix_of_advances advances)) (by omega)
            (Nat.le_of_succ_le_succ more)
          simp only [same, others]

/-- Blocks agree when the statements inside them do. -/
theorem block_agree {item : Parser Statement} {bound : Nat} (sound : Sound depth bound item)
    (room : limit ≤ bound + 1) (agree : AgreeInside limit other item) (enough : limit ≤ budget + 1)
    (more : budget ≤ larger) :
    AgreeInside limit (block other depth budget) (block item depth larger) := by
  have bodies : AgreeInside limit
      (fun cursor => .ok (statements other depth budget cursor).1
        (statements other depth budget cursor).2)
      (fun cursor => .ok (statements item depth larger cursor).1
        (statements item depth larger cursor).2) := by
    intro cursor inside
    have length := inside.length
    have same := statements_agree sound room agree inside (by omega) more
    have course := (statements_ensures sound larger (inside.within room) (by omega)).1
    exact ⟨by rw [same], suffix_of_advances course.advances⟩
  apply bodies.bind
  intro body
  exact (AgreeInside.refl (onward_accept _)).bind fun _ => .pure _

end Statements

/-- This is one statement, with another parser for the statements inside it. -/
def statementStep (other : Nat → Parser Statement) (budget depth : Nat) : Parser Statement := do
  let inner := other depth
  let body := block (other (depth + 1)) (depth + 1) budget
  let place ← here
  match place.kind with
  | .keyword .if_ => skip; ifStatement inner
  | .keyword .while_ => skip; whileStatement inner
  | .keyword .for_ => skip; forStatement inner
  | .keyword .func => skip; function body budget
  | .keyword .let_ => skip; variableDeclaration
  | .keyword .return_ => skip; returnStatement place.token.line
  | .indent => skip; return .block (← body)
  | _ => expressionStatement

theorem statementWithin_succ (budget depth : Nat) :
    statementWithin (budget + 1) depth = statementStep (statementWithin budget) budget depth := rfl

/-- This parser has a budget for all tokens that are left. -/
def statement (depth : Nat) : Parser Statement :=
  fun cursor => statementWithin cursor.rest.length depth cursor

section Recursion

variable {other item : Nat → Parser Statement} {bound budget larger depth : Nat}

/-- Statements agree when the statements inside them do. -/
theorem statementStep_agree (sound : ∀ depth, Sound depth bound (item depth))
    (room : limit ≤ bound + 1) (agree : ∀ depth, AgreeInside limit (other depth) (item depth))
    (enough : limit ≤ budget + 1) (more : budget ≤ larger) (inside : Inside (limit + 1) cursor) :
    Agree (statementStep other budget depth) (statementStep item larger depth) cursor := by
  have bodies := block_agree (sound (depth + 1)) room (agree (depth + 1)) enough more
  have skips {kind : Kind} {left right : Parser Statement} (word : cursor.kind = kind)
      (token : kind ≠ .eof) (further : AgreeInside limit left right) :
      Agree (skip >>= fun _ => left) (skip >>= fun _ => right) cursor := by
    apply Agree.skip (word ▸ token)
    intro shorter
    have length := inside.length
    exact further cursor.next ⟨by omega, (inside.later (next_suffix cursor)).goesOn⟩
  unfold statementStep
  apply Agree.here
  split
  next word => exact skips word (by simp) (ifStatement_agree (agree depth))
  next word => exact skips word (by simp) (whileStatement_agree (agree depth))
  next word => exact skips word (by simp) (forStatement_agree (agree depth))
  next word => exact skips word (by simp) (function_agree bodies enough more)
  next word => exact skips word (by simp) (.refl variableDeclaration_reads.onward)
  next word => exact skips word (by simp) (.refl (returnStatement_reads _).onward)
  next word => exact skips word (by simp) (bodies.bind fun _ => .pure _)
  next => exact Agree.refl (expressionStatement_reads.onward cursor)

/-- A token that starts no statement is blamed as one that starts no expression. -/
theorem statementWithin_of_stray (budget depth : Nat) (stray : startsLine cursor.kind = false) :
    statementWithin budget depth cursor =
      .error (cursor.error (.noExpression cursor.kind)) cursor := by
  cases budget with
  | zero => rfl
  | succ budget =>
      have fails : expression cursor = .error (cursor.error (.noExpression cursor.kind)) cursor :=
        expressionWithin_of_stray _ (Bool.or_eq_false_iff.1 stray).2
      simp only [statementWithin, here, bind, EStateM.bind]
      generalize cursor.kind = kind at *
      split
      case h_8 => simp only [expressionStatement, bind, EStateM.bind, fails]
      all_goals cases stray

/-- Where no token is left, the statement is missing. -/
theorem statementWithin_of_empty (budget depth : Nat) (empty : cursor.rest = []) :
    statementWithin budget depth cursor = .error (cursor.error (.noExpression .eof)) cursor := by
  have ends := kind_of_empty empty
  rw [statementWithin_of_stray budget depth (by rw [ends]; rfl), ends]

/-- More budget than there are tokens makes no difference. -/
theorem statementWithin_agree (goesOn : ∀ token ∈ cursor.rest, token.kind ≠ .eof)
    (enough : cursor.rest.length ≤ budget) (more : budget ≤ larger) :
    Agree (statementWithin budget depth) (statementWithin larger depth) cursor := by
  induction budget generalizing cursor larger depth with
  | zero =>
      have empty : cursor.rest = [] := List.eq_nil_of_length_eq_zero (by omega)
      exact Agree.of_error (statementWithin_of_empty 0 depth empty)
        (statementWithin_of_empty larger depth empty)
  | succ budget inductionHypothesis =>
      obtain ⟨larger, rfl⟩ : ∃ smaller, larger = smaller + 1 := ⟨larger - 1, by omega⟩
      have inner (depth : Nat) :
          AgreeInside (budget + 1) (statementWithin budget depth) (statementWithin larger depth) :=
        fun place inside => inductionHypothesis inside.goesOn (Nat.le_of_lt_succ inside.length)
          (Nat.le_of_succ_le_succ more)
      exact statementStep_agree (statementWithin_sound larger) more inner (Nat.le_refl _)
        (Nat.le_of_succ_le_succ more) ⟨Nat.lt_succ_of_le enough, goesOn⟩

/-- A budget that covers the rest gives the statement of the whole budget. -/
theorem statementWithin_eq (goesOn : ∀ token ∈ cursor.rest, token.kind ≠ .eof)
    (enough : cursor.rest.length ≤ budget) :
    statementWithin budget depth cursor = statement depth cursor :=
  (statementWithin_agree goesOn (Nat.le_refl _) enough).same.symm

/-- A statement within its budget only moves on. -/
theorem statementWithin_onward (within : cursor.Within budget) :
    Onward (statementWithin budget depth) cursor := by
  apply (statementWithin_sound budget depth cursor within).mono
  · exact fun _ _ keeps => suffix_of_advances keeps.1.advances
  · exact fun _ _ stumbles => suffix_of_advances stumbles.1.advances

/-- A statement depends on other statements only where fewer tokens are left. -/
theorem statementStep_eq_statement
    (inner : ∀ depth place, Inside cursor.rest.length place →
      other depth place = statement depth place)
    (goesOn : ∀ token ∈ cursor.rest, token.kind ≠ .eof) (enough : cursor.rest.length ≤ budget) :
    statementStep other budget depth cursor = statement depth cursor := by
  have agree (depth : Nat) :
      AgreeInside cursor.rest.length (other depth) (statementWithin budget depth) := by
    intro place inside
    have within : place.Within budget := inside.within (Nat.le_succ_of_le enough)
    refine ⟨?_, statementWithin_onward within⟩
    rw [inner depth place inside, statementWithin_eq inside.goesOn within.length]
  have step : Agree (statementStep other budget depth)
      (statementStep (statementWithin budget) budget depth) cursor :=
    statementStep_agree (statementWithin_sound budget) (Nat.le_succ_of_le enough) agree
      (Nat.le_succ_of_le enough) (Nat.le_refl budget) ⟨Nat.lt_succ_self _, goesOn⟩
  rw [step.same, ← statementWithin_succ, statementWithin_eq goesOn (Nat.le_succ_of_le enough)]

end Recursion

/-- The whole script needs no more budget than it has tokens. -/
theorem program_eq_statements (tokens : List Token) {budget : Nat}
    (enough : (script tokens).length ≤ budget) :
    statements (statementWithin budget 0) 0 budget (.ofTokens tokens) = program tokens := by
  have goesOn := script_goesOn tokens
  have agree : AgreeInside ((script tokens).length + 1)
      (statementWithin (script tokens).length 0) (statementWithin budget 0) :=
    fun place inside => statementWithin_agree inside.goesOn (Nat.le_of_lt_succ inside.length) enough
  exact (statements_agree (statementWithin_sound budget 0) (Nat.succ_le_succ enough) agree
    ⟨Nat.lt_succ_self _, goesOn⟩ (Nat.le_refl _) enough).symm

end Offside.Parser
