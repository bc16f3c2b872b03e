/-
This file proves that the budgets of the expression parser never run out, and that it calls itself
only where fewer tokens are left.
-/

import Offside.Proofs.Expression.Sound

namespace Offside.Parser

open Cursor Grammar

variable {α β : Type} {cursor : Cursor}

/-- However the run ends, the cursor has only moved on. -/
def Onward (parser : Parser α) (cursor : Cursor) : Prop :=
  Ensures parser cursor (fun _ after => after.rest <:+ cursor.rest)
    fun _ after => after.rest <:+ cursor.rest

/-- The two parsers do the same here, and the cursor only moves on. -/
structure Agree (left right : Parser α) (cursor : Cursor) : Prop where
  same : left cursor = right cursor
  onward : Onward right cursor

namespace Agree

/-- A parser that only moves on agrees with itself. -/
theorem refl {parser : Parser α} (onward : Onward parser cursor) : Agree parser parser cursor :=
  ⟨rfl, onward⟩

theorem pure (value : α) (cursor : Cursor) :
    Agree (pure value : Parser α) (Pure.pure value) cursor :=
  refl List.suffix_rfl

/-- Both parsers give the value and stay. -/
theorem of_ok {left right : Parser α} {value : α} (first : left cursor = .ok value cursor)
    (second : right cursor = .ok value cursor) : Agree left right cursor where
  same := first.trans second.symm
  onward := by
    unfold Onward Ensures
    simp only [second, List.suffix_rfl]

/-- Both parsers fail with the error and stay. -/
theorem of_error {left right : Parser α} {error : SyntaxError}
    (first : left cursor = .error error cursor) (second : right cursor = .error error cursor) :
    Agree left right cursor where
  same := first.trans second.symm
  onward := by
    unfold Onward Ensures
    simp only [second, List.suffix_rfl]

/-- Sequences agree when their first parts do and what comes next does. -/
theorem bind {left right : Parser α} {next other : α → Parser β} (start : Agree left right cursor)
    (further : ∀ value after, after.rest <:+ cursor.rest → Agree (next value) (other value) after) :
    Agree (left >>= next) (right >>= other) cursor where
  same := by
    have onward := start.onward
    change EStateM.bind left next cursor = EStateM.bind right other cursor
    unfold EStateM.bind
    rw [start.same]
    cases run : right cursor with
    | ok value after => exact (further value after (onward.ok run)).same
    | error error after => rfl
  onward := by
    rw [Onward, ensures_bind]
    apply start.onward.mono
    · intro value after moved
      apply (further value after moved).onward.mono
      · exact fun _ _ later => later.trans moved
      · exact fun _ _ later => later.trans moved
    · exact fun _ _ moved => moved

/-- Parsers that look at the cursor agree when they agree about this one. -/
theorem here {next other : Cursor → Parser β}
    (further : Agree (next cursor) (other cursor) cursor) :
    Agree (Parser.here >>= next) (Parser.here >>= other) cursor where
  same := further.same
  onward := ensures_bind.mpr further.onward

/-- Parsers that look at the next kind agree when they agree about this one. -/
theorem peek {next other : Kind → Parser β}
    (further : Agree (next cursor.kind) (other cursor.kind) cursor) :
    Agree (Parser.peek >>= next) (Parser.peek >>= other) cursor where
  same := further.same
  onward := ensures_bind.mpr further.onward

end Agree

/-- A step leaves an end of the rest. -/
theorem next_suffix (cursor : Cursor) : cursor.next.rest <:+ cursor.rest := by
  rw [next]
  split
  · exact List.suffix_rfl
  · next tokens => exact tokens ▸ List.suffix_cons _ _

/-- A step before the end leaves fewer tokens. -/
theorem next_shorter (more : cursor.kind ≠ .eof) :
    cursor.next.rest.length < cursor.rest.length := by
  have length := (passes_next more).length
  rw [List.length_singleton] at length
  omega

theorem kind_of_empty (empty : cursor.rest = []) : cursor.kind = .eof := by
  rw [kind_eq, empty]
  rfl

theorem stray_of_empty (empty : cursor.rest = []) : cursor.kind.startsExpression = false := by
  rw [kind_of_empty empty]
  rfl

/-- What comes after an optional token depends on the kind at the cursor. -/
theorem accept_bind (kind : Kind) (next : Bool → Parser β) (cursor : Cursor) :
    (accept kind >>= next) cursor =
      if cursor.kind = kind then next true cursor.next else next false cursor := by
  by_cases present : cursor.kind = kind <;>
    simp [accept, peek, skip, bind, EStateM.bind, pure, EStateM.pure, present]

namespace Agree

/-- A token of its own comes before what the parsers do next. -/
theorem skip {next other : Unit → Parser β} (more : cursor.kind ≠ .eof)
    (further : cursor.next.rest.length < cursor.rest.length →
      Agree (next ()) (other ()) cursor.next) :
    Agree (Parser.skip >>= next) (Parser.skip >>= other) cursor where
  same := (further (next_shorter more)).same
  onward := by
    rw [Onward, ensures_bind]
    apply (further (next_shorter more)).onward.mono
    · exact fun _ _ later => later.trans (next_suffix cursor)
    · exact fun _ _ later => later.trans (next_suffix cursor)

/-- Parsers that try a token agree when they agree with it and without it. -/
theorem accept {kind : Kind} {next other : Bool → Parser β} (more : kind ≠ .eof)
    (taken : cursor.next.rest.length < cursor.rest.length →
      Agree (next true) (other true) cursor.next)
    (absent : Agree (next false) (other false) cursor) :
    Agree (Parser.accept kind >>= next) (Parser.accept kind >>= other) cursor := by
  by_cases present : cursor.kind = kind
  · have further := taken (next_shorter (present ▸ more))
    refine ⟨?_, ?_⟩
    · rw [accept_bind, accept_bind, if_pos present, if_pos present, further.same]
    · rw [Onward, ensures_bind, ensures_accept]
      refine ⟨fun _ => ?_, fun differs => absurd present differs⟩
      apply further.onward.mono
      · exact fun _ _ later => later.trans (next_suffix cursor)
      · exact fun _ _ later => later.trans (next_suffix cursor)
  · refine ⟨?_, ?_⟩
    · rw [accept_bind, accept_bind, if_neg present, if_neg present, absent.same]
    · rw [Onward, ensures_bind, ensures_accept]
      exact ⟨fun isKind => absurd isKind present, fun _ => absent.onward⟩

/-- A token that is not there is left to what comes next. -/
theorem absent {kind : Kind} {left : Parser β} {other : Bool → Parser β}
    (missing : cursor.kind ≠ kind) (further : Agree left (other false) cursor) :
    Agree left (Parser.accept kind >>= other) cursor where
  same := by rw [accept_bind, if_neg missing, further.same]
  onward := by
    rw [Onward, ensures_bind, ensures_accept]
    exact ⟨fun isKind => absurd isKind missing, fun _ => further.onward⟩

end Agree

/-- A parser that expects a token only moves on. -/
theorem onward_expect (kind : Kind) (requirement : Requirement) (cursor : Cursor) :
    Onward (expect kind requirement) cursor := by
  rw [Onward, ensures_expect]
  exact ⟨fun _ => next_suffix cursor, fun _ => List.suffix_rfl⟩

/-- A parser that reads a grammar only moves on. -/
theorem Reads.onward {derives : List Token → α → Prop} {parser : Parser α}
    (reads : Reads derives parser) (cursor : Cursor) : Onward parser cursor := by
  apply (reads cursor).mono
  · rintro value after ⟨used, walks, -⟩
    exact ⟨used, walks.rest.symm⟩
  · rintro error after ⟨before, place, between, -, start, further, -⟩
    exact ⟨before ++ between, (start.trans further).rest.symm⟩

/-- The parsers agree wherever fewer tokens are left. -/
def AgreeBelow (limit : Nat) (left right : Parser α) : Prop :=
  ∀ cursor : Cursor, cursor.rest.length < limit → Agree left right cursor

/-- Parsers that agree below a limit agree below a lower one. -/
theorem AgreeBelow.mono {left right : Parser α} {limit lower : Nat}
    (agree : AgreeBelow limit left right) (less : lower ≤ limit) : AgreeBelow lower left right :=
  fun cursor below => agree cursor (Nat.lt_of_lt_of_le below less)

/-- The parser of a counted name only moves on. -/
theorem onward_step (place : Cursor) (target : Expression) (operator : BinaryOperator)
    (mistake : Mistake) (cursor : Cursor) : Onward (step place target operator mistake) cursor := by
  unfold step
  split <;> exact List.suffix_rfl

section Levels

variable {inner other : Parser Expression} {limit budget larger : Nat}

/-- Primaries agree when the expressions inside them do. -/
theorem primary_agree (agree : AgreeBelow limit inner other)
    (below : cursor.rest.length ≤ limit) : Agree (primary inner) (primary other) cursor := by
  unfold primary
  apply Agree.here
  split
  iterate 6 next => exact Agree.refl (next_suffix cursor)
  next kind =>
    have more : cursor.kind ≠ .eof := by rw [kind]; simp
    apply Agree.skip more
    intro shorter
    apply (agree cursor.next (by omega)).bind
    intro tree after _
    apply (Agree.refl (onward_expect _ _ after)).bind
    exact fun _ last _ => Agree.pure _ last
  next => exact Agree.refl List.suffix_rfl

/-- Lists of arguments agree when their expressions do. -/
theorem arguments_agree (agree : AgreeBelow limit inner other) (enough : limit ≤ budget + 1)
    (more : budget ≤ larger) :
    AgreeBelow limit (arguments inner budget) (arguments other larger) := by
  induction budget generalizing limit larger with
  | zero =>
      intro cursor below
      cases larger with
      | zero =>
          apply (agree cursor below).bind
          exact fun _ after _ => Agree.pure _ after
      | succ larger =>
          apply (agree cursor below).bind
          intro value after moved
          have empty : after.rest = [] :=
            List.eq_nil_of_length_eq_zero (by have := moved.length_le; omega)
          apply Agree.absent
          · rw [kind_of_empty empty]
            simp
          · exact Agree.pure _ after
  | succ budget inductionHypothesis =>
      intro cursor below
      obtain ⟨larger, rfl⟩ : ∃ smaller, larger = smaller + 1 := ⟨larger - 1, by omega⟩
      apply (agree cursor below).bind
      intro value after moved
      have length := moved.length_le
      apply Agree.accept (by simp)
      · intro shorter
        have lower : AgreeBelow (limit - 1) inner other := agree.mono (Nat.sub_le _ _)
        apply (inductionHypothesis lower (by omega) (by omega) after.next (by omega)).bind
        exact fun _ last _ => Agree.pure _ last
      · exact Agree.pure _ after

/-- Where no parenthesis opens, nothing more is called. -/
theorem calls_of_ne (inner : Parser Expression) (budget : Nat) (callee : Expression)
    (closed : cursor.kind ≠ .symbol .leftParen) :
    calls inner budget callee cursor = .ok callee cursor := by
  cases budget with
  | zero => rfl
  | succ budget =>
      change (if cursor.kind = .symbol .leftParen then _ else pure callee : Parser _) cursor = _
      rw [if_neg closed]
      rfl

/-- Calls agree when the expressions inside them do. -/
theorem calls_agree (agree : AgreeBelow limit inner other) (enough : cursor.rest.length ≤ budget)
    (more : budget ≤ larger) (below : cursor.rest.length ≤ limit) (callee : Expression) :
    Agree (calls inner budget callee) (calls other larger callee) cursor := by
  induction budget generalizing cursor larger callee with
  | zero =>
      have empty : cursor.rest = [] := List.eq_nil_of_length_eq_zero (by omega)
      have closed : cursor.kind ≠ .symbol .leftParen := by rw [kind_of_empty empty]; simp
      exact Agree.of_ok rfl (calls_of_ne other larger callee closed)
  | succ budget inductionHypothesis =>
      obtain ⟨larger, rfl⟩ : ∃ smaller, larger = smaller + 1 := ⟨larger - 1, by omega⟩
      unfold calls
      apply Agree.here
      split
      · next opens =>
          apply Agree.skip (by rw [opens]; simp)
          intro shorter
          apply Agree.peek
          have again (values : List Expression) (middle : Cursor)
              (moved : middle.rest <:+ cursor.next.rest) :
              Agree (expect (.symbol .rightParen) .parenAfterArguments >>= fun _ =>
                  calls inner budget (.call callee values cursor.token.line))
                (expect (.symbol .rightParen) .parenAfterArguments >>= fun _ =>
                  calls other larger (.call callee values cursor.token.line)) middle := by
            have length := moved.length_le
            apply (Agree.refl (onward_expect _ _ middle)).bind
            intro _ after later
            have further := later.length_le
            exact inductionHypothesis (by omega) (by omega) (by omega) _
          dsimp only
          split
          · exact again [] cursor.next List.suffix_rfl
          · have lower : AgreeBelow cursor.rest.length inner other := agree.mono below
            exact (arguments_agree lower enough (by omega) cursor.next shorter).bind again
      · exact Agree.pure _ cursor

/-- A token that starts no primary is a mistake where one is due. -/
theorem primary_of_stray (inner : Parser Expression) (stray : cursor.kind.startsPrimary = false) :
    primary inner cursor = .error (cursor.error (.noExpression cursor.kind)) cursor := by
  simp only [primary, here, bind, EStateM.bind]
  generalize cursor.kind = kind at *
  split
  case h_8 => rfl
  all_goals cases stray

/-- A token that starts no expression is a mistake where an operand is due. -/
theorem unary_of_stray (inner : Parser Expression) (budget : Nat)
    (stray : cursor.kind.startsExpression = false) :
    unary inner budget cursor = .error (cursor.error (.noExpression cursor.kind)) cursor := by
  obtain ⟨noPrimary, noSign⟩ := Bool.or_eq_false_iff.1 stray
  have sign : UnaryOperator.ofKind? cursor.kind = none := by simpa using noSign
  cases budget with
  | zero => rfl
  | succ budget =>
      simp only [unary, here, bind, EStateM.bind, sign, primary_of_stray inner noPrimary]

/-- Operands agree when the expressions inside them do. -/
theorem unary_agree (agree : AgreeBelow limit inner other) (enough : cursor.rest.length ≤ budget)
    (more : budget ≤ larger) (below : cursor.rest.length ≤ limit) :
    Agree (unary inner budget) (unary other larger) cursor := by
  induction budget generalizing cursor larger with
  | zero =>
      have empty : cursor.rest = [] := List.eq_nil_of_length_eq_zero (by omega)
      have stray := stray_of_empty empty
      exact Agree.of_error (unary_of_stray inner 0 stray) (unary_of_stray other larger stray)
  | succ budget inductionHypothesis =>
      obtain ⟨larger, rfl⟩ : ∃ smaller, larger = smaller + 1 := ⟨larger - 1, by omega⟩
      unfold unary
      apply Agree.here
      split
      · next operator sign =>
          have operates : cursor.kind ≠ .eof := by
            intro ends
            rw [ends] at sign
            cases sign
          apply Agree.skip operates
          intro shorter
          apply (inductionHypothesis (by omega) (by omega) (by omega)).bind
          exact fun _ after _ => Agree.pure _ after
      · apply (primary_agree agree below).bind
        intro callee after moved
        have length := moved.length_le
        exact calls_agree agree (by omega) (by omega) (by omega) callee

/-- Where no connective of the level follows, the chain ends. -/
theorem chain_of_none {level : Level} (operand : Parser Expression) (budget : Nat)
    (left : Expression) (last : level.connective? cursor.kind = none) :
    chain level operand budget left cursor = .ok left cursor := by
  cases budget with
  | zero => rfl
  | succ budget =>
      simp only [chain, here, bind, EStateM.bind, last]
      rfl

/-- Chains agree when their operands do. -/
theorem chain_agree {level : Level} {operand right : Parser Expression}
    (agree : AgreeBelow limit operand right) (enough : cursor.rest.length ≤ budget)
    (more : budget ≤ larger) (below : cursor.rest.length ≤ limit) (left : Expression) :
    Agree (chain level operand budget left) (chain level right larger left) cursor := by
  induction budget generalizing cursor larger left with
  | zero =>
      have empty : cursor.rest = [] := List.eq_nil_of_length_eq_zero (by omega)
      have last : level.connective? cursor.kind = none := by
        rw [kind_of_empty empty]
        cases level <;> rfl
      exact Agree.of_ok rfl (chain_of_none right larger left last)
  | succ budget inductionHypothesis =>
      obtain ⟨larger, rfl⟩ : ∃ smaller, larger = smaller + 1 := ⟨larger - 1, by omega⟩
      unfold chain
      apply Agree.here
      split
      · next connective sign =>
          have joins : cursor.kind ≠ .eof := by
            intro ends
            rw [ends] at sign
            cases level <;> cases sign
          apply Agree.skip joins
          intro shorter
          apply (agree cursor.next (by omega)).bind
          intro value after moved
          have length := moved.length_le
          exact inductionHypothesis (by omega) (by omega) (by omega) _
      · exact Agree.pure _ cursor

/-- Towers of levels agree when their operands do. -/
theorem tower_agree {operand right : Parser Expression} (agree : AgreeBelow limit operand right)
    (enough : limit ≤ budget + 1) (more : budget ≤ larger) (levels : List Level) :
    AgreeBelow limit (tower operand budget levels) (tower right larger levels) := by
  induction levels with
  | nil => exact agree
  | cons level tighter inductionHypothesis =>
      intro cursor below
      unfold tower
      apply (inductionHypothesis cursor below).bind
      intro left after moved
      have length := moved.length_le
      exact chain_agree inductionHypothesis (by omega) more (by omega) left

/-- Assignments agree when the expressions inside them do. -/
theorem assignment_agree (agree : AgreeBelow limit inner other)
    (enough : limit ≤ budget) (more : budget ≤ larger) (below : cursor.rest.length ≤ limit) :
    Agree (assignment inner budget) (assignment other larger) cursor := by
  have operands : AgreeBelow (limit + 1) (unary inner budget) (unary other larger) :=
    fun place inside => unary_agree agree (by omega) more (by omega)
  have targets := tower_agree operands (by omega) more Level.all cursor (by omega)
  unfold assignment
  apply targets.bind
  intro target place moved
  have length := moved.length_le
  apply Agree.here
  split
  · next equals =>
      apply Agree.skip (by rw [equals]; simp)
      intro shorter
      apply (agree place.next (by omega)).bind
      intro value after _
      split
      · exact Agree.pure _ after
      · exact Agree.refl List.suffix_rfl
  · next increments =>
      apply Agree.skip (by rw [increments]; simp)
      exact fun _ => Agree.refl (onward_step _ _ _ _ place.next)
  · next decrements =>
      apply Agree.skip (by rw [decrements]; simp)
      exact fun _ => Agree.refl (onward_step _ _ _ _ place.next)
  · exact Agree.pure _ place

end Levels

/-- A token that starts no expression is a mistake where an assignment is due. -/
theorem assignment_of_stray (inner : Parser Expression) (budget : Nat)
    (stray : cursor.kind.startsExpression = false) :
    assignment inner budget cursor =
      .error (cursor.error (.noExpression cursor.kind)) cursor := by
  have fails (levels : List Level) : tower (unary inner budget) budget levels cursor =
      .error (cursor.error (.noExpression cursor.kind)) cursor := by
    induction levels with
    | nil => exact unary_of_stray inner budget stray
    | cons level tighter inductionHypothesis =>
        simp only [tower, bind, EStateM.bind, inductionHypothesis]
  simp only [assignment, bind, EStateM.bind, fails Level.all]

/-- A token that starts no expression is blamed before the cursor moves. -/
theorem expressionWithin_of_stray (budget : Nat) (stray : cursor.kind.startsExpression = false) :
    expressionWithin budget cursor =
      .error (cursor.error (.noExpression cursor.kind)) cursor := by
  cases budget with
  | zero => rfl
  | succ budget => exact assignment_of_stray _ _ stray

/-- Where no token is left, the expression is missing. -/
theorem expressionWithin_of_empty (budget : Nat) (empty : cursor.rest = []) :
    expressionWithin budget cursor = .error (cursor.error (.noExpression .eof)) cursor := by
  rw [expressionWithin_of_stray budget (stray_of_empty empty), kind_of_empty empty]

/-- More budget than there are tokens makes no difference. -/
theorem expressionWithin_agree {budget larger : Nat} (enough : cursor.rest.length ≤ budget)
    (more : budget ≤ larger) :
    Agree (expressionWithin budget) (expressionWithin larger) cursor := by
  induction budget generalizing cursor larger with
  | zero =>
      have empty : cursor.rest = [] := List.eq_nil_of_length_eq_zero (by omega)
      exact Agree.of_error (expressionWithin_of_empty 0 empty)
        (expressionWithin_of_empty larger empty)
  | succ budget inductionHypothesis =>
      obtain ⟨larger, rfl⟩ : ∃ smaller, larger = smaller + 1 := ⟨larger - 1, by omega⟩
      have inner : AgreeBelow (budget + 1) (expressionWithin budget) (expressionWithin larger) :=
        fun place below => inductionHypothesis (by omega) (by omega)
      exact assignment_agree inner (Nat.le_refl _) more enough

/-- A budget that covers the rest gives the expression of the whole budget. -/
theorem expressionWithin_eq {budget : Nat} (enough : cursor.rest.length ≤ budget) :
    expressionWithin budget cursor = expression cursor :=
  (expressionWithin_agree (Nat.le_refl _) enough).same.symm

/-- An expression depends on other expressions only where fewer tokens are left. -/
theorem assignment_eq_expression {other : Parser Expression} {budget : Nat}
    (inner : ∀ place : Cursor, place.rest.length < cursor.rest.length →
      other place = expression place)
    (enough : cursor.rest.length ≤ budget) :
    assignment other budget cursor = expression cursor := by
  have agree : AgreeBelow cursor.rest.length other (expressionWithin budget) := by
    intro place below
    refine ⟨?_, (expressionWithin_reads budget).onward place⟩
    rw [inner place below, expressionWithin_eq (by omega)]
  rw [(assignment_agree agree enough (Nat.le_succ budget) (Nat.le_refl _)).same]
  exact expressionWithin_eq (Nat.le_succ_of_le enough)

end Offside.Parser
