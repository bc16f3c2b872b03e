/-
This file proves that statements are read alike from two lists of tokens side by side, with the same
mistakes. Only a statement that fails at the end of the first list may be read otherwise.
-/

import Offside.Proofs.Parallel.Expression
import Offside.Proofs.Parallel.Recovery
import Offside.Proofs.Statement.Budget

namespace Offside

open Cursor Grammar

/-- The cursor sits at its depth, with at most so many tokens left. -/
structure Cursor.Seated (body : List Token) (depth limit : Nat) (cursor : Cursor) : Prop
    extends Sits body depth cursor where
  room : cursor.rest.length ≤ limit

namespace Cursor.Seated

variable {body : List Token} {depth limit : Nat} {cursor after : Cursor}

theorem limited (seated : Seated body depth limit cursor) : cursor.Within limit :=
  ⟨seated.room, seated.within.goesOn⟩

/-- A cursor that moves on at its depth stays seated. -/
theorem goes (seated : Seated body depth limit cursor) (goes : Goes depth cursor after) :
    Seated body depth limit after :=
  ⟨goes.sits seated.toSits, Nat.le_trans goes.advances.length seated.room⟩

theorem next (seated : Seated body depth limit cursor) (flat : cursor.kind.isFlat = true) :
    Seated body depth limit cursor.next := seated.goes (.next flat)

/-- A statement inside another one comes after a token. -/
theorem inside (seated : Seated body depth (limit + 1) cursor) (flat : cursor.kind.isFlat = true) :
    Seated body depth limit cursor.next := by
  have shorter : cursor.next.rest.length < cursor.rest.length := by
    apply Parser.next_shorter
    intro ends
    rw [ends] at flat
    cases flat
  have room := seated.room
  exact ⟨(seated.next flat).toSits, by omega⟩

/-- A parser that reads a grammar leaves the cursor seated. -/
theorem reads {α : Type} {derives : List Token → α → Prop} {parser : Parser α} {value : α}
    (seated : Seated body depth limit cursor) (reads : Parser.Reads derives parser)
    (run : parser cursor = .ok value after) : Seated body depth limit after := by
  obtain ⟨used, walks, -⟩ := (reads cursor).ok run
  exact seated.goes (.flat walks)

/-- A sound statement leaves the cursor seated. -/
theorem sound {item : Parser Statement} {tree : Statement} (seated : Seated body depth limit cursor)
    (sound : Parser.Sound depth limit item) (run : item cursor = .ok tree after) :
    Seated body depth limit after :=
  seated.goes ((sound cursor seated.limited).ok run).1

end Cursor.Seated

namespace Parser

variable {later body : List Token} {firm : Bool} {depth limit : Nat} {first second : Cursor}

/-- This parser of statements keeps to its course and reads both lists alike. -/
structure Twofold (later body : List Token) (depth limit : Nat) (item : Parser Statement) :
    Prop where
  sound : Sound depth limit item
  parallel : ∀ first second : Cursor, Seated body depth limit first →
    Parallel later true item item first second

section Simple

theorem onward_peek (cursor : Cursor) : Onward peek cursor := List.suffix_rfl

/-- Expression statements are read alike from both lists. -/
theorem expressionStatement_parallel :
    Parallel later firm expressionStatement expressionStatement first second := by
  refine (expression_steady _ _).bind (fun _ _ _ _ => .terminator (.pure _)) fun _ => .inr ?_
  exact fun _ => (Needs.terminator _).bind

/-- Variable declarations are read alike from both lists. -/
theorem variableDeclaration_parallel :
    Parallel later firm variableDeclaration variableDeclaration first second := by
  unfold variableDeclaration
  refine .expect (by simp) fun isName token same => ?_
  have stops (name : Name) (initial : Option Expression) : Needs (do
      terminator .endOfVariable
      return Statement.let_ name initial) := (Needs.terminator _).bind
  rw [same.name isName]
  refine .accept (by simp) (fun _ => ?_) (fun _ => ?_) fun _ _ => .inl ?_
  · refine ((expression_steady _ _).map some).bind (fun _ _ _ _ => .terminator (.pure _)) ?_
    exact fun _ => .inr fun _ => stops _ _
  · exact .terminator (.pure _)
  · exact stops _ _

/-- Returns are read alike from both lists. -/
theorem returnStatement_parallel (line : Nat) :
    Parallel later firm (returnStatement line) (returnStatement line) first second := by
  have stops (value : Option Expression) : Needs (do
      terminator .endOfReturn
      return Statement.return_ line value) := (Needs.terminator _).bind
  have values : Parallel later firm
      (some <$> expression >>= fun value => do
        terminator .endOfReturn
        return Statement.return_ line value)
      (some <$> expression >>= fun value => do
        terminator .endOfReturn
        return Statement.return_ line value) first second := by
    refine ((expression_steady _ _).map some).bind (fun _ _ _ _ => .terminator (.pure _)) ?_
    exact fun _ => .inr fun _ => stops _
  unfold returnStatement
  refine .peek ?_ fun _ => Needs.after onward_peek fun found => ?_
  · dsimp only
    split
    · exact .terminator (.pure _)
    · exact values
  · dsimp only
    split
    · exact stops none
    · exact (Needs.expression.map some).bind

/-- The initializer of a counting loop is read alike from both lists. -/
theorem forInitializer_steady : Steady later forInitializer := by
  intro first second
  refine .accept (by simp) (fun _ => .pure _) (fun _ => ?_) nofun
  refine .accept (by simp) (fun _ => ?_) (fun _ => ?_) nofun
  · exact variableDeclaration_parallel.map some
  · exact expressionStatement_parallel.map some

/-- The condition of a counting loop is read alike from both lists. -/
theorem forCondition_steady : Steady later forCondition := by
  intro first second
  refine .here (fun place agrees => ?_) nofun
  rw [agrees.kind]
  split
  · next stop =>
      rw [agrees.line stop rfl]
      exact .pure _
  · exact expression_steady _ _

/-- The increment of a counting loop is read alike from both lists. -/
theorem forIncrement_steady : Steady later forIncrement := by
  intro first second
  refine .peek ?_ nofun
  split
  · exact .pure _
  · exact (expression_steady _ _).map some

/-- What stands in the place of a parameter is blamed after it was skipped. -/
theorem parameters_steady (budget : Nat) : Steady later (parameters budget) := by
  induction budget with
  | zero => exact fun first second => .peek (.blame _) nofun
  | succ budget inductionHypothesis =>
      intro first second
      refine .here (fun place agrees => ?_) nofun
      rw [agrees.kind]
      refine .skip nofun ?_
      split
      · next isName =>
          rw [agrees.token.name isName]
          refine .accept (by simp) (fun _ => ?_) (fun _ => .pure _) nofun
          exact (inductionHypothesis _ _).bind (fun _ _ _ _ => .pure _) nofun
      · refine .blameAt agrees _ fun _ _ => ?_
        cases tokens : first.rest with
        | nil =>
            left
            rw [Cursor.next, tokens]
            rfl
        | cons token rest =>
            right
            rw [Cursor.next, tokens]
            exact ⟨⟨_, rfl⟩, rfl⟩

/-- A list of parameters needs a token. -/
theorem Needs.parameters (budget : Nat) : Needs (parameters budget) := by
  intro cursor empty value after run
  rw [parameters_of_empty budget empty] at run
  cases run

end Simple

section Statements

variable {inner item : Parser Statement}

/-- Conditionals are read alike from both lists unless the later tokens start with an else. -/
theorem ifStatement_parallel (twofold : Twofold later body depth limit inner)
    (bare : headKind later ≠ .keyword .else_) (seated : Seated body depth limit first) :
    Parallel later true (ifStatement inner) (ifStatement inner) first second := by
  refine (expression_steady _ _).bind (fun condition middle _ run => ?_) fun _ => .inr ?_
  · refine .expect (by simp) fun isThen _ _ => ?_
    have inside := (seated.reads expression_reads run).next (flat_of_keyword isThen)
    refine (twofold.parallel _ _ inside).bind (fun success after _ run => ?_) fun _ => .inl rfl
    refine .accept (by simp) (fun isElse => ?_) (fun _ => .pure _) fun _ _ => .inr bare
    refine .expect (by simp) fun isThen _ _ => ?_
    have turned := (inside.sound twofold.sound run).next (flat_of_keyword isElse)
    have inside := turned.next (flat_of_keyword isThen)
    exact (twofold.parallel _ _ inside).bind (fun _ _ _ _ => .pure _) fun _ => .inl rfl
  · exact fun _ => (Needs.expect (by simp) _).bind

/-- Loops are read alike from both lists. -/
theorem whileStatement_parallel (twofold : Twofold later body depth limit inner)
    (seated : Seated body depth limit first) :
    Parallel later true (whileStatement inner) (whileStatement inner) first second := by
  refine (expression_steady _ _).bind (fun condition middle _ run => ?_) fun _ => .inr ?_
  · refine .expect (by simp) fun isThen _ _ => ?_
    have inside := (seated.reads expression_reads run).next (flat_of_keyword isThen)
    exact (twofold.parallel _ _ inside).bind (fun _ _ _ _ => .pure _) fun _ => .inl rfl
  · exact fun _ => (Needs.expect (by simp) _).bind

/-- The clauses of a counting loop are read alike from both lists. -/
theorem clauses_parallel {β : Type}
    {next : Option Statement → Expression → Option Expression → Parser β}
    (seated : Seated body depth limit first)
    (needs : ∀ initializer condition increment, Needs (next initializer condition increment))
    (continues : ∀ initializer condition increment after last, Seated body depth limit after →
      Parallel later true (next initializer condition increment)
        (next initializer condition increment) after last) :
    let clauses := forInitializer >>= fun initializer => forCondition >>= fun condition =>
      expect (.symbol .semicolon) .semicolonAfterCondition >>= fun _ =>
      forIncrement >>= fun increment => next initializer condition increment
    Parallel later true clauses clauses first second := by
  refine (forInitializer_steady _ _).bind (fun initializer _ _ run => ?_) fun _ => .inr ?_
  · have initialized := seated.reads forInitializer_reads run
    refine (forCondition_steady _ _).bind (fun condition middle _ run => ?_) fun _ => .inr ?_
    · refine .expect (by simp) fun stop _ _ => ?_
      obtain ⟨used, walks, -⟩ := (forCondition_ensures _).ok run
      have conditioned := (initialized.goes (.flat walks)).next (flat_of_symbol stop)
      refine (forIncrement_steady _ _).bind (fun increment _ _ run => ?_) fun _ => .inr ?_
      · exact continues _ _ _ _ _ (conditioned.reads forIncrement_reads run)
      · exact fun increment => needs _ _ increment
    · exact fun _ => (Needs.expect (by simp) _).bind
  · exact fun _ => Needs.after onward_forCondition fun _ => (Needs.expect (by simp) _).bind

/-- The body of a counting loop is read alike from both lists. -/
theorem forBody_parallel (twofold : Twofold later body depth limit inner)
    (seated : Seated body depth limit first) (initializer : Option Statement)
    (condition : Expression) (increment : Option Expression) :
    let parser := expect (.keyword .then_) .thenAfterFor >>= fun _ => inner >>= fun body =>
      pure (Statement.forLoop initializer condition increment body)
    Parallel later true parser parser first second := by
  refine .expect (by simp) fun isThen _ _ => ?_
  have inside := seated.next (flat_of_keyword isThen)
  exact (twofold.parallel _ _ inside).bind (fun _ _ _ _ => .pure _) fun _ => .inl rfl

/-- Counting loops are read alike from both lists. -/
theorem forStatement_parallel (twofold : Twofold later body depth limit inner)
    (seated : Seated body depth limit first) :
    Parallel later true (forStatement inner) (forStatement inner) first second := by
  refine .accept (by simp) (fun opens => ?_) (fun _ => ?_) fun _ _ => .inl ?_
  · apply clauses_parallel (seated.next (flat_of_symbol opens))
    · exact fun _ _ _ => (Needs.expect (by simp) _).bind
    · intro initializer condition increment after last clauses
      refine .expect (by simp) fun closes _ _ => ?_
      exact forBody_parallel twofold (clauses.next (flat_of_symbol closes)) _ _ _
  · apply clauses_parallel seated
    · exact fun _ _ _ => (Needs.expect (by simp) _).bind
    · exact fun _ _ _ _ _ clauses => forBody_parallel twofold clauses _ _ _
  · refine Needs.after forInitializer_reads.onward fun _ => ?_
    exact Needs.after onward_forCondition fun _ => (Needs.expect (by simp) _).bind

/-- A statement that fails is noted and skipped in both lists. -/
theorem attempt_parallel (twofold : Twofold later body depth limit item)
    (seated : Seated body depth limit first) (matches_ : first.Matches later second)
    (failed : ∀ error after, item first = .error error after → after.Open later ∧
      (((after.note error).recover depth).Open later ∨ after.Lined ∧ Balanced 0 after.rest)) :
    (attempt item depth second).1 = (attempt item depth first).1 ∧
      (attempt item depth first).2.Matches later (attempt item depth second).2 := by
  have parallel : Parallel later true item item first second := twofold.parallel _ _ seated
  obtain ⟨tree, after, run, tried⟩ | ⟨error, after, run, tried⟩ := attempt_cases item depth first
  · obtain ⟨last, same, matched⟩ := parallel.ok run nofun matches_
    rw [tried, attempt, same]
    exact ⟨rfl, matched⟩
  · obtain ⟨open_, reached⟩ := failed error after run
    obtain ⟨other, last, same, site, matched⟩ := parallel.error run open_ matches_
    rw [tried, attempt, same]
    exact ⟨rfl, (matched.note site).recover open_ reached⟩

/-- An attempt leaves the cursor seated. -/
theorem Seated.attempt (sound : Sound depth limit item) (seated : Seated body depth limit first) :
    Seated body depth limit (attempt item depth first).2 := by
  obtain ⟨tree, after, run, tried⟩ | ⟨error, after, run, tried⟩ := attempt_cases item depth first
  · rw [tried]
    exact seated.sound sound run
  · rw [tried]
    have stumbled := seated.goes ((sound first seated.limited).error run).1
    have resumed := (note_advances after error).trans (recover_advances _ depth)
    exact ⟨stumbled.toSits.recover error, Nat.le_trans resumed.length stumbled.room⟩

/-- Lists of statements are read alike as far as the first one goes. -/
theorem statements_parallel (twofold : Twofold later body depth limit item) (budget : Nat)
    (seated : Seated body depth limit first) (enough : first.rest.length ≤ budget)
    (matches_ : first.Matches later second)
    (reached : (statements item depth budget first).2.Open later) :
    (statements item depth budget second).1 = (statements item depth budget first).1 ∧
      (statements item depth budget first).2.Matches later
        (statements item depth budget second).2 := by
  induction budget generalizing first second with
  | zero => exact ⟨rfl, matches_.mark depth⟩
  | succ budget inductionHypothesis =>
      have course := (statements_ensures twofold.sound _ seated.limited enough).1
      have open_ := reached.of_suffix (suffix_of_advances course.advances)
      have same := ((matches_.mark depth).agrees open_).closes depth
      rw [statements] at reached
      rw [statements, statements, same]
      cases ends : (first.mark depth).closes depth with
      | true => exact ⟨rfl, matches_.mark depth⟩
      | false =>
          simp only [ends, Bool.false_eq_true, if_false] at reached ⊢
          have marked : Seated body depth limit (first.mark depth) :=
            ⟨seated.toSits.mark, seated.room⟩
          have tried := Seated.attempt twofold.sound marked
          obtain ⟨-, shorter⟩ := attempt_forward twofold.sound seated.limited ends
          have others := (statements_ensures twofold.sound budget tried.limited (by omega)).1
          have resumed := reached.of_suffix (suffix_of_advances others.advances)
          obtain ⟨tree, matched⟩ := by
            apply attempt_parallel twofold marked (matches_.mark depth)
            intro error after run
            rw [attempt, run] at resumed
            have moved := (note_advances after error).trans (recover_advances _ depth)
            exact ⟨resumed.of_suffix (suffix_of_advances moved), .inl resumed⟩
          obtain ⟨trees, last⟩ := inductionHypothesis tried (by omega) matched reached
          exact ⟨by rw [tree, trees], last⟩

/-- Inside a block the layout has a dedent for its end, so more tokens come in both lists. -/
theorem block_parallel (twofold : Twofold later body (depth + 1) limit item)
    (seated : Seated body (depth + 1) limit first) :
    Parallel later true (block item (depth + 1) limit) (block item (depth + 1) limit) first
      second := by
  have course := (statements_ensures twofold.sound limit seated.limited seated.room).1
  have listed : Parallel later false
      (fun cursor => .ok (statements item (depth + 1) limit cursor).1
        (statements item (depth + 1) limit cursor).2)
      (fun cursor => .ok (statements item (depth + 1) limit cursor).1
        (statements item (depth + 1) limit cursor).2) first second := by
    refine ⟨suffix_of_advances course.advances, ?_, nofun⟩
    intro trees after run reached matches_
    cases run
    obtain ⟨same, matched⟩ :=
      statements_parallel twofold limit seated seated.room matches_ (reached rfl)
    exact ⟨_, by rw [same], matched⟩
  have closed : (statements item (depth + 1) limit first).2.kind = .dedent := by
    obtain ends | ⟨-, dedent⟩ := closes_iff.1 course.closes
    · cases (course.sits seated.toSits).depth_eq_zero ends
    · exact dedent
  have firm : Parallel later true _ _ first second := listed.of_more fun trees after run => by
    cases run
    exact rest_ne_nil (by rw [closed]; simp)
  refine firm.bind (fun trees after _ run => ?_) fun _ => .inl rfl
  cases run
  exact .accept (by simp) (fun _ => .pure _) (fun differs => absurd closed differs)
    fun differs => absurd closed differs

/-- After its parameters a function has an equals sign, perhaps a line break, and its block. -/
theorem functionBody_parallel (twofold : Twofold later body (depth + 1) limit item)
    (seated : Seated body depth limit first) (name : Name) (names : List Name) :
    let parser := expect (.symbol .equal) .equalAfterParameters >>= fun _ =>
      accept .newline >>= fun _ => expect .indent .functionBlock >>= fun _ =>
      block item (depth + 1) limit >>= fun body => pure (Statement.func name names body)
    Parallel later true parser parser first second := by
  have inside {place last : Cursor} (sits : Seated body depth limit place) :
      Parallel later true
        (expect .indent .functionBlock >>= fun _ =>
          block item (depth + 1) limit >>= fun body => pure (Statement.func name names body))
        (expect .indent .functionBlock >>= fun _ =>
          block item (depth + 1) limit >>= fun body => pure (Statement.func name names body))
        place last := by
    refine .expect (by simp) fun indent _ _ => ?_
    have opened : Seated body (depth + 1) limit place.next :=
      ⟨sits.toSits.indent indent, Nat.le_trans (next_suffix place).length_le sits.room⟩
    exact (block_parallel twofold opened).bind (fun _ _ _ _ => .pure _) fun _ => .inl rfl
  refine .expect (by simp) fun isEqual _ _ => ?_
  have equals := seated.next (flat_of_symbol isEqual)
  refine .accept (by simp) (fun newline => ?_) (fun _ => inside equals) fun _ _ => .inl ?_
  · exact inside (equals.next (by rw [newline]; rfl))
  · exact (Needs.expect (by simp) _).bind

/-- Functions are read alike from both lists. -/
theorem function_parallel (twofold : Twofold later body (depth + 1) limit item)
    (seated : Seated body depth limit first) :
    let parser := function (block item (depth + 1) limit) limit
    Parallel later true parser parser first second := by
  refine .expect (by simp) fun isName token same => ?_
  have named : Seated body depth limit first.next := seated.next (by rw [isName]; rfl)
  rw [same.name isName]
  refine .expect (by simp) fun isColon _ _ => ?_
  have started := named.next (flat_of_symbol isColon)
  refine .peek ?_ fun _ => Needs.after onward_peek fun found => ?_
  · dsimp only
    split
    · exact functionBody_parallel twofold started _ _
    · refine (parameters_steady limit _ _).bind (fun names after _ run => ?_) fun _ => .inr ?_
      · have spec : Ensures (parameters limit) first.next.next _ (Stumbles depth first.next) :=
          parameters_ensures limit (.inl isColon)
        obtain ⟨used, walks, -⟩ := spec.ok run
        exact functionBody_parallel twofold (started.goes (.flat walks)) _ _
      · exact fun _ => (Needs.expect (by simp) _).bind
  · dsimp only
    split
    · exact (Needs.expect (by simp) _).bind
    · exact (Needs.parameters limit).bind

end Statements

/-- Statements of every budget are read alike from both lists. -/
theorem statementWithin_twofold (bare : headKind later ≠ .keyword .else_) (limit depth : Nat) :
    Twofold later body depth limit (statementWithin limit depth) := by
  refine ⟨statementWithin_sound limit depth, ?_⟩
  induction limit generalizing depth with
  | zero => exact fun first second _ => .peek (.blame _) fun _ cursor _ value after => nofun
  | succ limit inductionHypothesis =>
      intro first second seated
      have inner (depth : Nat) : Twofold later body depth limit (statementWithin limit depth) :=
        ⟨statementWithin_sound limit depth, inductionHypothesis depth⟩
      refine .here (fun place agrees => ?_) fun _ cursor empty value after run => ?_
      · rw [agrees.kind]
        split
        next word =>
          have inside := seated.inside (flat_of_keyword word)
          exact .skip (fun _ => by rw [word]; simp) (ifStatement_parallel (inner depth) bare inside)
        next word =>
          have inside := seated.inside (flat_of_keyword word)
          exact .skip (fun _ => by rw [word]; simp) (whileStatement_parallel (inner depth) inside)
        next word =>
          have inside := seated.inside (flat_of_keyword word)
          exact .skip (fun _ => by rw [word]; simp) (forStatement_parallel (inner depth) inside)
        next word =>
          have inside := seated.inside (flat_of_keyword word)
          exact .skip (fun _ => by rw [word]; simp) (function_parallel (inner (depth + 1)) inside)
        next word => exact .skip (fun _ => by rw [word]; simp) variableDeclaration_parallel
        next word =>
          rw [agrees.line word rfl]
          exact .skip (fun _ => by rw [word]; simp) (returnStatement_parallel _)
        next indent =>
          have more : first.kind ≠ .eof := by rw [indent]; simp
          have shorter := next_shorter more
          have room := seated.room
          have opened : Seated body (depth + 1) limit first.next :=
            ⟨seated.toSits.indent indent, by omega⟩
          refine .skip (fun _ => more) ?_
          exact (block_parallel (inner (depth + 1)) opened).bind (fun _ _ _ _ => .pure _)
            fun _ => .inl rfl
        next => exact expressionStatement_parallel
      · have fails := statementWithin_of_empty (limit + 1) depth empty
        rw [statementWithin] at fails
        rw [fails] at run
        cases run

end Parser

end Offside
