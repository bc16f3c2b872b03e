/-
This file proves that the statement parser keeps to its course, and that what it reads without a
mistake is derived by the grammar.
-/

import Offside.Proofs.Statement.Course
import Offside.Proofs.Statement.Grammar

namespace Offside.Parser

open Cursor Grammar

theorem flat_of_keyword {cursor : Cursor} {word : Keyword} (kind : cursor.kind = .keyword word) :
    cursor.kind.isFlat = true := by rw [kind]; rfl

theorem flat_of_terminator {kind : Kind} (stop : kind.isTerminator = true) :
    kind.isFlat = true := by
  obtain rfl | rfl := Kind.isTerminator_iff.1 stop <;> rfl

/-- The parser of an expression statement reads expression statements. -/
theorem expressionStatement_reads : Reads Simple expressionStatement := by
  intro cursor
  simp only [expressionStatement, ensures_bind, ensures_terminator, ensures_pure]
  apply (expression_reads cursor).mono
  · rintro tree after ⟨used, walks, derivation⟩
    refine ⟨fun stop => ?_, fun _ => walks.blames rfl⟩
    exact ⟨_, walks.trans (Walks.next (flat_of_terminator stop)), .intro derivation stop⟩
  · exact fun _ _ blames => blames

/-- The parser of a declaration reads declarations. -/
theorem variableDeclaration_reads : Reads Declaration variableDeclaration := by
  intro cursor
  simp only [variableDeclaration, ensures_bind, ensures_expect, ensures_accept]
  refine ⟨fun isName => ?_, fun _ => Blames.here rfl⟩
  have named : Walks cursor [cursor.token] cursor.next := Walks.next (by rw [isName]; rfl)
  refine ⟨fun isEqual => ?_, fun _ => ?_⟩
  · have signed := named.trans (Walks.next (flat_of_symbol isEqual))
    simp only [if_true, ensures_bind, ensures_map, ensures_terminator, ensures_pure]
    apply (expression_reads cursor.next.next).mono
    · rintro tree after ⟨used, walks, derivation⟩
      refine ⟨fun stop => ?_, fun _ => (signed.trans walks).blames rfl⟩
      refine ⟨_, signed.trans (walks.trans (Walks.next (flat_of_terminator stop))), ?_⟩
      exact .initial isName isEqual derivation stop
    · exact fun _ _ blames => blames.after signed
  · simp only [Bool.false_eq_true, if_false, ensures_bind, ensures_terminator, ensures_pure]
    refine ⟨fun stop => ?_, fun _ => named.blames rfl⟩
    exact ⟨_, named.trans (Walks.next (flat_of_terminator stop)), .bare isName stop⟩

/-- The parser of a return reads returns. -/
theorem returnStatement_reads (line : Nat) :
    Reads (fun used tree => ∃ value, Returned used value ∧ tree = .return_ line value)
      (returnStatement line) := by
  intro cursor
  simp only [returnStatement, ensures_bind, ensures_peek, ensures_ite, ensures_pure, ensures_map,
    ensures_terminator]
  refine ⟨fun stop => ⟨fun _ => ?_, fun goesOn => ?_⟩, fun _ => ?_⟩
  · exact ⟨_, Walks.next (flat_of_terminator stop), none, .nothing stop, rfl⟩
  · rw [stop] at goesOn
    cases goesOn
  · apply (expression_reads cursor).mono
    · rintro tree after ⟨used, walks, derivation⟩
      refine ⟨fun stop => ?_, fun _ => walks.blames rfl⟩
      exact ⟨_, walks.trans (Walks.next (flat_of_terminator stop)), some tree,
        .value derivation stop, rfl⟩
    · exact fun _ _ blames => blames

/-- The parser of an initializer reads initializers. -/
theorem forInitializer_reads : Reads Initializer forInitializer := by
  intro cursor
  simp only [forInitializer, ensures_bind, ensures_accept, if_true, Bool.false_eq_true, if_false,
    ensures_pure, ensures_map]
  refine ⟨fun stop => ?_, fun _ => ⟨fun word => ?_, fun _ => ?_⟩⟩
  · exact ⟨_, Walks.next (flat_of_symbol stop), .absent stop⟩
  · apply (variableDeclaration_reads cursor.next).mono
    · rintro tree after ⟨used, walks, derivation⟩
      exact ⟨_, walks.step (flat_of_keyword word), .declaration word derivation⟩
    · exact fun _ _ blames => blames.next (flat_of_keyword word)
  · apply (expressionStatement_reads cursor).mono
    · rintro tree after ⟨used, walks, derivation⟩
      exact ⟨used, walks, .simple derivation⟩
    · exact fun _ _ blames => blames

/-- What is read before a semicolon is a condition with it. -/
theorem forCondition_ensures (cursor : Cursor) :
    Ensures forCondition cursor
      (fun tree after => ∃ used, Walks cursor used after ∧
        (after.kind = .symbol .semicolon → Condition (used ++ [after.token]) tree))
      (Blames cursor) := by
  simp only [forCondition, ensures_bind, ensures_here, ensures_ite, ensures_pure]
  refine ⟨fun _ => ⟨[], Walks.refl cursor, fun stop => .absent stop⟩, fun _ => ?_⟩
  apply (expression_reads cursor).mono
  · rintro tree after ⟨used, walks, derivation⟩
    exact ⟨used, walks, fun stop => .present derivation stop⟩
  · exact fun _ _ blames => blames

/-- The parser of an increment reads increments. -/
theorem forIncrement_reads : Reads Increment forIncrement := by
  intro cursor
  simp only [forIncrement, ensures_bind, ensures_peek, ensures_ite, ensures_pure, ensures_map]
  refine ⟨fun _ => ⟨[], Walks.refl cursor, .absent⟩, fun _ => ?_⟩
  apply (expression_reads cursor).mono
  · rintro tree after ⟨used, walks, derivation⟩
    exact ⟨used, walks, .present derivation⟩
  · exact fun _ _ blames => blames

/-- The run stays at its depth and moves on, and what it reads without an error is derived. -/
def Keeps {α : Type} (depth : Nat) (derives : List Token → α → List Token → Prop) (cursor : Cursor)
    (tree : α) (after : Cursor) : Prop :=
  Goes depth cursor after ∧ after.rest.length < cursor.rest.length ∧
    (after.errors = cursor.errors → derives cursor.rest tree after.rest)

/-- The parser reads a statement at the given depth, with at most so many tokens left. -/
def Sound (depth limit : Nat) (item : Parser Statement) : Prop :=
  ∀ cursor : Cursor, cursor.Within limit →
    Ensures item cursor (Keeps depth Derives cursor) (Stumbles depth cursor)

section Statements

variable {depth limit : Nat} {inner : Parser Statement} {cursor : Cursor}

/-- The statement inside another one comes after flat tokens. -/
theorem Sound.inside {used : List Token} {middle : Cursor} {good : Statement → Cursor → Prop}
    (sound : Sound depth limit inner) (walks : Walks cursor used middle)
    (within : middle.Within limit)
    (continues : ∀ tree after, Keeps depth Derives middle tree after → good tree after) :
    Ensures inner middle good (Stumbles depth cursor) :=
  (sound middle within).mono continues fun _ _ stumbles => stumbles.after walks

/-- Flat tokens before a part of a statement make a longer one. -/
theorem Keeps.prepend {α β : Type} {part : List Token → α → List Token → Prop}
    {derives : List Token → β → List Token → Prop} {used : List Token} {middle after : Cursor}
    {tree : α} {whole : β} (walks : Walks cursor used middle)
    (keeps : Keeps depth part middle tree after)
    (derive : part middle.rest tree after.rest → derives (used ++ middle.rest) whole after.rest) :
    Keeps depth derives cursor whole after := by
  obtain ⟨goes, shorter, derived⟩ := keeps
  refine ⟨.trans (.flat walks) goes, ?_, fun same => ?_⟩
  · have start := walks.length
    omega
  · rw [walks.rest]
    exact derive (derived (same.trans walks.errors.symm))

/-- A loop is read at its depth when its body is. -/
theorem whileStatement_ensures (sound : Sound depth limit inner)
    (word : cursor.kind = .keyword .while_) (within : cursor.Within (limit + 1)) :
    Ensures (whileStatement inner) cursor.next (Keeps depth Derives cursor)
      (Stumbles depth cursor) := by
  have headed := Walks.next (flat_of_keyword word)
  simp only [whileStatement, ensures_bind, ensures_expect, ensures_pure]
  apply (expression_reads cursor.next).mono
  · rintro condition after ⟨used, walks, derivation⟩
    have start := headed.trans walks
    refine ⟨fun isThen => ?_, fun _ => start.stumbles rfl⟩
    have header := start.trans (Walks.next (flat_of_keyword isThen))
    have length := header.length
    simp only [List.length_append, List.length_singleton] at length
    apply sound.inside header (within.inside header.advances (by omega))
    intro body last keeps
    apply keeps.prepend header
    intro derived
    have whole := Derives.while_ word derivation isThen derived
    simpa using whole
  · exact fun _ _ blames => (blames.after headed).stumbles

/-- A conditional is read at its depth when its branches are. -/
theorem ifStatement_ensures (sound : Sound depth limit inner)
    (word : cursor.kind = .keyword .if_) (within : cursor.Within (limit + 1)) :
    Ensures (ifStatement inner) cursor.next (Keeps depth Derives cursor)
      (Stumbles depth cursor) := by
  have headed := Walks.next (flat_of_keyword word)
  simp only [ifStatement, ensures_bind, ensures_expect, ensures_accept, if_true,
    Bool.false_eq_true, if_false, ensures_pure]
  apply (expression_reads cursor.next).mono
  · rintro condition after ⟨used, walks, derivation⟩
    have start := headed.trans walks
    refine ⟨fun isThen => ?_, fun _ => start.stumbles rfl⟩
    have header := start.trans (Walks.next (flat_of_keyword isThen))
    have length := header.length
    simp only [List.length_append, List.length_singleton] at length
    apply sound.inside header (within.inside header.advances (by omega))
    rintro success middle ⟨goes, shorter, derived⟩
    have reached := Goes.trans (.flat header) goes
    refine ⟨fun isElse => ⟨fun isNext => ?_, fun _ => ?_⟩, fun noElse => ?_⟩
    · have turn := (Walks.next (flat_of_keyword isElse)).trans (Walks.next (flat_of_keyword isNext))
      have further := turn.length
      have inside := within.inside (reached.trans (.flat turn)).advances (by omega)
      apply (sound middle.next.next inside).mono
      · rintro failure last ⟨goesOn, less, alternative⟩
        have onward := Goes.trans (.flat turn) goesOn
        refine ⟨reached.trans onward, by omega, fun same => ?_⟩
        obtain ⟨before, later⟩ := reached.advances.errors_eq onward.advances same
        have first := derived (before.trans header.errors.symm)
        have second := alternative (later.trans turn.errors.symm)
        rw [turn.rest] at first
        have whole := Derives.ifElse word derivation isThen first isElse isNext second
        rw [header.rest]
        simpa using whole
      · intro error last stumbles
        have nested := stumbles.after (Walks.next (flat_of_keyword isNext))
        exact nested.afterWord reached (flat_of_keyword isElse)
    · exact .afterWord reached (flat_of_keyword isElse) ((Walks.refl _).stumbles rfl)
    · refine ⟨reached, by omega, fun same => ?_⟩
      have first := derived (same.trans header.errors.symm)
      have whole := Derives.if_ word derivation isThen first (by rwa [← kind_eq])
      rw [header.rest]
      simpa using whole
  · exact fun _ _ blames => (blames.after headed).stumbles

/-- After the clauses of a loop come its keyword and its body. -/
theorem forBody_ensures {used : List Token} {middle : Cursor} {initializer : Option Statement}
    {condition : Expression} {increment : Option Expression} (sound : Sound depth limit inner)
    (word : cursor.kind = .keyword .for_) (within : cursor.Within (limit + 1))
    (walks : Walks cursor (cursor.token :: used) middle)
    (header : middle.kind = .keyword .then_ → Header used initializer condition increment) :
    Ensures (expect (.keyword .then_) .thenAfterFor >>= fun _ => inner >>= fun body =>
      pure (.forLoop initializer condition increment body)) middle (Keeps depth Derives cursor)
      (Stumbles depth cursor) := by
  simp only [ensures_bind, ensures_expect, ensures_pure]
  refine ⟨fun isThen => ?_, fun _ => walks.stumbles rfl⟩
  have start := walks.trans (Walks.next (flat_of_keyword isThen))
  have length := start.length
  simp only [List.length_append, List.length_cons] at length
  apply sound.inside start (within.inside start.advances (by omega))
  intro body last keeps
  apply keeps.prepend start
  intro derived
  have whole := Derives.for_ word (header isThen) isThen derived
  simpa [Statement.forLoop] using whole

/-- The clauses of a counting loop are read one after the other, or a token is blamed. -/
theorem clauses_ensures {β : Type} {good : β → Cursor → Prop} {bad : SyntaxError → Cursor → Prop}
    {next : Option Statement → Expression → Option Expression → Parser β}
    (blamed : ∀ error after, Blames cursor error after → bad error after)
    (continues : ∀ initializer condition increment used after, Walks cursor used after →
      Clauses used initializer condition increment →
      Ensures (next initializer condition increment) after good bad) :
    Ensures (forInitializer >>= fun initializer => forCondition >>= fun condition =>
      expect (.symbol .semicolon) .semicolonAfterCondition >>= fun _ =>
      forIncrement >>= fun increment => next initializer condition increment) cursor good bad := by
  simp only [ensures_bind, ensures_expect]
  apply (forInitializer_reads cursor).mono
  · rintro initializer second ⟨first, walksFirst, initialized⟩
    apply (forCondition_ensures second).mono
    · rintro condition third ⟨tokens, walksSecond, conditioned⟩
      have start := walksFirst.trans walksSecond
      refine ⟨fun stop => ?_, fun _ => blamed _ _ (start.blames rfl)⟩
      have closed := walksSecond.trans (Walks.next (flat_of_symbol stop))
      have both := walksFirst.trans closed
      apply (forIncrement_reads third.next).mono
      · rintro increment after ⟨last, walksThird, incremented⟩
        exact continues _ _ _ _ _ (walksFirst.trans (closed.trans walksThird))
          (.intro initialized (conditioned stop) incremented)
      · exact fun _ _ blames => blamed _ _ (blames.after both)
    · exact fun _ _ blames => blamed _ _ (blames.after walksFirst)
  · exact blamed

/-- A counting loop is read at its depth when its body is. -/
theorem forStatement_ensures (sound : Sound depth limit inner)
    (word : cursor.kind = .keyword .for_) (within : cursor.Within (limit + 1)) :
    Ensures (forStatement inner) cursor.next (Keeps depth Derives cursor)
      (Stumbles depth cursor) := by
  have headed := Walks.next (flat_of_keyword word)
  rw [forStatement, ensures_bind, ensures_accept]
  refine ⟨fun opens => ?_, fun plain => ?_⟩
  · have opened := headed.trans (Walks.next (flat_of_symbol opens))
    apply clauses_ensures
    · exact fun _ _ blames => (blames.after opened).stumbles
    · intro initializer condition increment used after walks clauses
      have start := opened.trans walks
      rw [if_pos rfl, ensures_bind, ensures_expect]
      refine ⟨fun closes => ?_, fun _ => start.stumbles rfl⟩
      have whole := start.trans (Walks.next (flat_of_symbol closes))
      rw [List.append_assoc] at whole
      exact forBody_ensures sound word within whole fun _ => .parenthesized opens clauses closes
  · apply clauses_ensures
    · exact fun _ _ blames => (blames.after headed).stumbles
    · intro initializer condition increment used after walks clauses
      rw [if_neg Bool.false_ne_true]
      refine forBody_ensures sound word within (headed.trans walks) fun _ => .plain ?_ clauses
      cases used with
      | nil => exact fun same => by cases same
      | cons token others =>
          rw [kind_of_rest walks.rest] at plain
          exact plain

/-- After a colon or a comma stands a parameter, or something that is skipped in its place. -/
theorem parameters_ensures (budget : Nat)
    (separator : cursor.kind = .symbol .colon ∨ cursor.kind = .symbol .comma) :
    Ensures (parameters budget) cursor.next
      (fun names after => ∃ used, Walks cursor.next used after ∧ Names used names)
      (Stumbles depth cursor) := by
  have flat : cursor.kind.isFlat = true := by
    obtain kind | kind := separator <;> rw [kind] <;> rfl
  induction budget generalizing cursor with
  | zero => exact (Walks.next flat).stumbles rfl
  | succ budget inductionHypothesis =>
      simp only [parameters, ensures_bind, ensures_here, ensures_skip, ensures_ite,
        ensures_accept, Bool.false_eq_true, ensures_pure, ensures_blameAt, true_implies,
        not_true_eq_false, false_implies, not_false_eq_true, and_true, true_and]
      refine ⟨fun isName => ⟨fun comma => ?_, fun _ => ?_⟩, fun _ => ?_⟩
      · have named : Walks cursor.next [cursor.next.token] cursor.next.next :=
          Walks.next (by rw [isName]; rfl)
        apply (inductionHypothesis (.inr comma) (flat_of_symbol comma)).mono
        · rintro names after ⟨used, walks, derivation⟩
          refine ⟨_, named.trans (walks.step (flat_of_symbol comma)), ?_⟩
          exact .more isName comma derivation
        · exact fun _ _ stumbles => stumbles.after ((Walks.next flat).trans named)
      · exact ⟨_, Walks.next (by rw [isName]; rfl), .last isName⟩
      · exact ⟨.parameter separator, cursor, cursor.next, .parameter _, .refl depth cursor,
          ⟨next_clears cursor, .inl rfl, rfl, next_clears _⟩, rfl⟩

/-- One statement of a list, with the recovery after a mistake. -/
theorem attempt_cases (item : Parser Statement) (depth : Nat) (cursor : Cursor) :
    (∃ tree after, item cursor = .ok tree after ∧
      attempt item depth cursor = (some tree, after)) ∨
    (∃ error after, item cursor = .error error after ∧
      attempt item depth cursor = (none, (after.note error).recover depth)) := by
  unfold attempt
  cases run : item cursor with
  | ok tree after => exact .inl ⟨tree, after, rfl, rfl⟩
  | error error after => exact .inr ⟨error, after, rfl, rfl⟩

/-- A statement that fails still brings its list forward. -/
theorem recover_shorter {middle : Cursor} (error : SyntaxError)
    (goesOn : cursor.closes depth = false) (advances : Advances cursor middle) :
    ((middle.note error).recover depth).rest.length < cursor.rest.length := by
  cases ends : middle.closes depth with
  | false =>
      have noted : (middle.note error).closes depth = false := ends
      exact Nat.lt_of_lt_of_le (recover_length noted) advances.length
  | true =>
      have noted : (middle.note error).closes depth = true := ends
      rw [recover, if_pos noted]
      obtain ⟨used, rest, -⟩ := advances.passed
      cases used with
      | nil =>
          have same : middle.kind = cursor.kind := by rw [kind_eq, kind_eq, rest]; rfl
          rw [Cursor.closes, same] at ends
          exact absurd (goesOn.symm.trans ends) Bool.false_ne_true
      | cons token others =>
          rw [rest, List.length_append, List.length_cons]
          change middle.rest.length < _
          omega

/-- A mistake that is noted stays. -/
theorem errors_of_mistake {middle last : Cursor} {error : SyntaxError}
    (start : Advances cursor middle)
    (further : Advances ((middle.note error).recover depth) last) :
    last.errors ≠ cursor.errors := by
  intro same
  have before := start.errors.length_le
  have after := ((recover_advances (middle.note error) depth).trans further).errors.length_le
  rw [note, List.length_append, List.length_singleton, same] at after
  omega

/-- A list of statements is read to its end, and without mistakes it is derived. -/
theorem statements_ensures {item : Parser Statement} (sound : Sound depth limit item)
    (budget : Nat) (within : cursor.Within limit) (enough : cursor.rest.length ≤ budget) :
    Lists depth cursor (statements item depth budget cursor).2 ∧
      ((statements item depth budget cursor).2.errors = cursor.errors →
        Sequence cursor.rest (statements item depth budget cursor).1
          (statements item depth budget cursor).2.rest) := by
  induction budget generalizing cursor with
  | zero =>
      have empty : cursor.rest = [] := List.eq_nil_of_length_eq_zero (by omega)
      have ends : cursor.closes depth = true := closes_iff.2 (.inl (by rw [kind_eq, empty]; rfl))
      exact ⟨.stop ends, fun _ => .nil⟩
  | succ budget inductionHypothesis =>
      rw [statements]
      cases ends : (cursor.mark depth).closes depth with
      | true =>
          rw [if_pos rfl]
          exact ⟨.stop ends, fun _ => .nil⟩
      | false =>
          have goesOn : cursor.closes depth = false := ends
          have spec := sound (cursor.mark depth) (within.later (mark_advances cursor depth))
          rw [if_neg (by simp)]
          dsimp only
          obtain ⟨tree, after, run, tried⟩ | ⟨error, after, run, tried⟩ :=
            attempt_cases item depth (cursor.mark depth)
          · rw [tried]
            obtain ⟨goes, shorter, derived⟩ := spec.ok run
            have shorter : after.rest.length < cursor.rest.length := shorter
            have start := (mark_advances cursor depth).trans goes.advances
            obtain ⟨others, sequence⟩ := inductionHypothesis (within.later start) (by omega)
            refine ⟨.statement goesOn goes shorter others, fun same => ?_⟩
            obtain ⟨before, later⟩ := goes.advances.errors_eq others.advances same
            exact .cons (derived before) (sequence later)
          · -- The mistake is noted, so there is nothing to derive: only the course matters.
            rw [tried]
            obtain ⟨goes, turn, place, mistake, turns, slips, rfl⟩ := spec.error run
            have start := (mark_advances cursor depth).trans goes.advances
            have shorter := recover_shorter (place.error mistake) goesOn start
            have resumed := (note_advances after (place.error mistake)).trans
              (recover_advances _ depth)
            obtain ⟨others, -⟩ :=
              inductionHypothesis (within.later (start.trans resumed)) (by omega)
            refine ⟨.mistake goesOn goes turns slips others, fun same => ?_⟩
            exact absurd same (errors_of_mistake start others.advances)

/-- A block ends behind its dedent, or where the script ends. -/
theorem ensures_block {item : Parser Statement} {budget : Nat}
    {good : List Statement → Cursor → Prop} {bad : SyntaxError → Cursor → Prop} :
    Ensures (block item depth budget) cursor good bad ↔
      ((statements item depth budget cursor).2.kind = .dedent →
        good (statements item depth budget cursor).1 (statements item depth budget cursor).2.next) ∧
      ((statements item depth budget cursor).2.kind ≠ .dedent →
        good (statements item depth budget cursor).1 (statements item depth budget cursor).2) := by
  change Ensures (accept .dedent >>= fun _ => pure (statements item depth budget cursor).1)
    (statements item depth budget cursor).2 good bad ↔ _
  rw [ensures_bind, ensures_accept]
  rfl

/-- A block never fails: its mistakes are noted inside. -/
theorem block_ensures {item : Parser Statement} {bad : SyntaxError → Cursor → Prop}
    (sound : Sound (depth + 1) limit item) (indent : cursor.kind = .indent)
    (within : cursor.Within (limit + 1)) :
    Ensures (block item (depth + 1) limit) cursor.next (Keeps depth Block cursor) bad := by
  have more : cursor.kind ≠ .eof := by rw [indent]; simp
  have opened := passes_next more
  have length := opened.length
  rw [List.length_singleton] at length
  have inner := within.inside opened.advances (by omega)
  obtain ⟨inside, sequence⟩ := statements_ensures sound limit inner inner.length
  have goes := Goes.block indent inside
  have start := inside.advances.length
  rw [ensures_block]
  generalize statements item (depth + 1) limit cursor.next = parsed at *
  refine ⟨fun dedent => ?_, fun open_ => ?_⟩
  · rw [if_pos dedent] at goes
    have last : parsed.2.kind ≠ .eof := by rw [dedent]; simp
    have closed := passes_next last
    have shorter := closed.length
    refine ⟨goes, by omega, fun same => ?_⟩
    have before := closed.errors.symm.trans (same.trans opened.errors.symm)
    have derived := sequence before
    rw [closed.rest] at derived
    rw [opened.rest]
    exact .closed indent derived dedent
  · rw [if_neg open_] at goes
    refine ⟨goes, by omega, fun same => ?_⟩
    have derived := sequence (same.trans opened.errors.symm)
    have ends : parsed.2.kind = .eof := by
      obtain ends | ⟨-, dedent⟩ := closes_iff.1 inside.closes
      · exact ends
      · exact absurd dedent open_
    have empty := (inner.later inside.advances).rest_eq_nil ends
    rw [empty] at derived ⊢
    rw [opened.rest]
    exact .ended indent derived

/-- After its parameters a function has an equals sign, perhaps a line break, and its block. -/
theorem functionBody_ensures {item : Parser Statement} {name colon : Token} {used : List Token}
    {names : List Name} {middle : Cursor} (sound : Sound (depth + 1) limit item)
    (within : cursor.Within (limit + 1)) (word : cursor.kind = .keyword .func)
    (isName : name.kind = .name) (isColon : colon.kind = .symbol .colon)
    (walks : Walks cursor (cursor.token :: name :: colon :: used) middle)
    (derivation : Parameters used names) :
    Ensures (expect (.symbol .equal) .equalAfterParameters >>= fun _ => accept .newline >>= fun _ =>
      expect .indent .functionBlock >>= fun _ => block item (depth + 1) limit >>= fun body =>
      pure (.func (.ofToken name) names body)) middle (Keeps depth Derives cursor)
      (Stumbles depth cursor) := by
  simp only [ensures_bind, ensures_expect, ensures_accept, ensures_pure]
  refine ⟨fun isEqual => ?_, fun _ => walks.stumbles rfl⟩
  have equals := walks.trans (Walks.next (flat_of_symbol isEqual))
  have inside {gap : List Token} {place : Cursor} (broken : LineBreak gap)
      (further : Walks middle.next gap place) (indent : place.kind = .indent) :
      Ensures (block item (depth + 1) limit) place.next
        (fun body after => Keeps depth Derives cursor (.func (.ofToken name) names body) after)
        (Stumbles depth cursor) := by
    have start := equals.trans further
    apply (block_ensures sound indent (within.later start.advances)).mono
    · intro body after keeps
      apply keeps.prepend start
      intro derived
      have whole := Derives.func word isName isColon derivation isEqual broken derived
      simpa using whole
    · exact fun _ _ impossible => impossible
  refine ⟨fun newline => ?_, fun _ => ?_⟩
  · have broken : Walks middle.next [middle.next.token] middle.next.next :=
      Walks.next (by rw [newline]; rfl)
    refine ⟨inside (.present newline) broken, fun _ => ?_⟩
    exact (equals.trans broken).stumbles rfl
  · refine ⟨inside .absent (Walks.refl _), fun _ => ?_⟩
    exact equals.stumbles rfl

/-- A function is read at its depth when its body is read one block deeper. -/
theorem function_ensures {item : Parser Statement} (sound : Sound (depth + 1) limit item)
    (word : cursor.kind = .keyword .func) (within : cursor.Within (limit + 1)) :
    Ensures (function (block item (depth + 1) limit) limit) cursor.next
      (Keeps depth Derives cursor) (Stumbles depth cursor) := by
  have headed := Walks.next (flat_of_keyword word)
  rw [function, ensures_bind, ensures_expect]
  refine ⟨fun isName => ?_, fun _ => headed.stumbles rfl⟩
  have named := headed.trans (Walks.next (by rw [isName]; rfl))
  rw [ensures_bind, ensures_expect]
  refine ⟨fun isColon => ?_, fun _ => named.stumbles rfl⟩
  have started := named.trans (Walks.next (flat_of_symbol isColon))
  rw [ensures_bind, ensures_peek]
  dsimp only
  rw [ensures_ite]
  refine ⟨fun _ => ?_, fun _ => ?_⟩
  · exact functionBody_ensures sound within word isName isColon started .none
  · rw [ensures_bind]
    apply (parameters_ensures limit (.inl isColon)).mono
    · rintro names middle ⟨used, walks, derivation⟩
      exact functionBody_ensures sound within word isName isColon (started.trans walks)
        (.some derivation)
    · exact fun _ _ stumbles => stumbles.after named

/-- Simple statements are derived by the tokens that they walk over. -/
theorem Reads.keeps {parser : Parser Statement} {derives : List Token → Statement → Prop}
    (reads : Reads derives parser) {middle : Cursor} {start : List Token}
    (walks : Walks cursor start middle)
    (whole : ∀ used tree rest, derives used tree →
      0 < (start ++ used).length ∧ Derives (start ++ used ++ rest) tree rest) :
    Ensures parser middle (Keeps depth Derives cursor) (Stumbles depth cursor) := by
  apply (reads middle).mono
  · rintro tree after ⟨used, further, derivation⟩
    have all := walks.trans further
    obtain ⟨nonempty, derived⟩ := whole used tree after.rest derivation
    have length := all.length
    refine ⟨.flat all, by omega, fun _ => ?_⟩
    rw [all.rest]
    exact derived
  · exact fun _ _ blames => (blames.after walks).stumbles

/-- Every budget reads statements at their depth. -/
theorem statementWithin_sound (limit depth : Nat) :
    Sound depth limit (statementWithin limit depth) := by
  induction limit generalizing depth with
  | zero => exact fun cursor _ => (Walks.refl cursor).stumbles rfl
  | succ limit inductionHypothesis =>
      intro cursor within
      have inner := inductionHypothesis depth
      have item := inductionHypothesis (depth + 1)
      simp only [statementWithin, ensures_bind, ensures_here]
      split
      next word =>
        rw [ensures_bind, ensures_skip]
        exact ifStatement_ensures inner word within
      next word =>
        rw [ensures_bind, ensures_skip]
        exact whileStatement_ensures inner word within
      next word =>
        rw [ensures_bind, ensures_skip]
        exact forStatement_ensures inner word within
      next word =>
        rw [ensures_bind, ensures_skip]
        exact function_ensures item word within
      next word =>
        rw [ensures_bind, ensures_skip]
        apply variableDeclaration_reads.keeps (Walks.next (flat_of_keyword word))
        intro used tree rest derivation
        exact ⟨Nat.succ_pos _, .let_ word derivation⟩
      next word =>
        rw [ensures_bind, ensures_skip]
        apply (returnStatement_reads cursor.token.line).keeps (Walks.next (flat_of_keyword word))
        rintro used tree rest ⟨value, derivation, rfl⟩
        exact ⟨Nat.succ_pos _, .return_ word derivation⟩
      next indent =>
        simp only [ensures_bind, ensures_skip, ensures_pure]
        apply (block_ensures item indent within).mono
        · intro body after keeps
          exact keeps.prepend (Walks.refl cursor) .block
        · exact fun _ _ impossible => impossible
      next =>
        apply expressionStatement_reads.keeps (Walks.refl cursor)
        intro used tree rest derivation
        refine ⟨?_, .simple derivation⟩
        cases derivation with
        | intro derivation stop => simp

end Statements

/-- The whole script is one list of statements. -/
theorem program_ensures (tokens : List Token) :
    Lists 0 (.ofTokens tokens) (program tokens).2 ∧
      ((program tokens).2.errors = [] →
        Sequence (script tokens) (program tokens).1 (program tokens).2.rest) := by
  exact statements_ensures (statementWithin_sound _ 0) _ (ofTokens_within tokens) (Nat.le_refl _)

end Offside.Parser
