/-
This file proves that the program parser accepts exactly the grammar of statements.
-/

import Offside.Proofs.Expression.Complete
import Offside.Proofs.Statement.Sound

namespace Offside.Parser

open Cursor Grammar

/-- A terminator extends no expression. -/
theorem ends_of_terminator {kind : Kind} (stop : kind.isTerminator = true) :
    kind.extendsExpression = false := by
  obtain rfl | rfl := Kind.isTerminator_iff.1 stop <;> rfl

/-- An expression before a token that ends it is found, and that token comes next. -/
theorem expression_before {α : Type} {good : α → Cursor → Prop} {bad : SyntaxError → Cursor → Prop}
    {next : Expression → Parser α} {cursor : Cursor} {used later : List Token} {stop : Token}
    {tree : Expression} (derivation : Assignment used tree)
    (ends : stop.kind.extendsExpression = false) (tokens : cursor.rest = used ++ stop :: later)
    (continues : ∀ after, cursor.Passes used after → after.rest = stop :: later →
      Ensures (next tree) after good bad) :
    Ensures (expression >>= next) cursor good bad := by
  have finds : Finds expression used tree (stop :: later) := expression_finds derivation ends
  exact finds.step tokens continues

section Clauses

variable {used later : List Token}

/-- The parser finds every expression statement. -/
theorem expressionStatement_finds {tree : Statement} (derivation : Simple used tree) :
    Finds expressionStatement used tree later := by
  intro cursor tokens
  cases derivation with
  | intro derivation isStop =>
      rw [List.append_assoc] at tokens
      apply expression_before derivation (ends_of_terminator isStop) tokens
      intro middle passes rest
      apply terminator_step rest isStop
      intro after stopped _
      exact ⟨rfl, passes.trans stopped⟩

/-- The parser finds every declaration. -/
theorem variableDeclaration_finds {tree : Statement} (derivation : Declaration used tree) :
    Finds variableDeclaration used tree later := by
  intro cursor tokens
  cases derivation with
  | bare isName isStop =>
      apply expect_step tokens isName
      intro second named rest
      apply accept_stay
      · intro same
        rw [kind_of_rest rest] at same
        rw [same] at isStop
        cases isStop
      · apply terminator_step rest isStop
        intro after stopped _
        exact ⟨rfl, named.trans stopped⟩
  | initial isName isEqual derivation isStop =>
      simp only [List.cons_append, List.append_assoc, List.nil_append] at tokens
      apply expect_step tokens isName
      intro second named rest
      apply accept_step rest isEqual
      intro third signed remaining
      rw [if_pos rfl, ensures_bind, ensures_map, ← ensures_bind]
      apply expression_before derivation (ends_of_terminator isStop) remaining
      intro fourth passes last
      apply terminator_step last isStop
      intro after stopped _
      exact ⟨rfl, named.trans (signed.trans (passes.trans stopped))⟩

/-- The parser finds every return. -/
theorem returnStatement_finds {line : Nat} {value : Option Expression}
    (derivation : Returned used value) :
    Finds (returnStatement line) used (.return_ line value) later := by
  intro cursor tokens
  rw [returnStatement, ensures_bind, ensures_peek]
  cases derivation with
  | nothing isStop =>
      have stop : cursor.kind.isTerminator = true := by rwa [kind_of_rest tokens]
      rw [if_pos stop]
      apply terminator_step tokens isStop
      intro after stopped _
      exact ⟨rfl, stopped⟩
  | value derivation isStop =>
      rw [List.append_assoc] at tokens
      have starts := starts_at derivation.starts tokens
      have goesOn : ¬cursor.kind.isTerminator = true := by
        intro stop
        obtain same | same := Kind.isTerminator_iff.1 stop <;> rw [same] at starts <;> cases starts
      rw [if_neg goesOn, ensures_bind, ensures_map, ← ensures_bind]
      apply expression_before derivation (ends_of_terminator isStop) tokens
      intro middle passes rest
      apply terminator_step rest isStop
      intro after stopped _
      exact ⟨rfl, passes.trans stopped⟩

/-- The parser finds every initializer of a counting loop. -/
theorem forInitializer_finds {tree : Option Statement} (derivation : Initializer used tree) :
    Finds forInitializer used tree later := by
  intro cursor tokens
  cases derivation with
  | absent isStop =>
      apply accept_step tokens isStop
      intro after stopped _
      exact ⟨rfl, stopped⟩
  | declaration word derivation =>
      apply accept_stay
      · rw [kind_of_rest tokens, word]
        simp
      · apply accept_step tokens word
        intro middle worded rest
        rw [if_pos rfl, ensures_map]
        obtain ⟨after, passes, -⟩ := exists_passes rest
        apply (variableDeclaration_finds derivation).ensures rest passes
        exact ⟨rfl, worded.trans passes⟩
  | simple derivation =>
      have starts := starts_at derivation.starts tokens
      obtain ⟨after, passes, -⟩ := exists_passes tokens
      apply accept_stay
      · intro same
        rw [same] at starts
        cases starts
      · apply accept_stay
        · intro same
          rw [same] at starts
          cases starts
        · rw [if_neg Bool.false_ne_true, ensures_map]
          exact (expressionStatement_finds derivation).ensures tokens passes ⟨rfl, passes⟩

/-- A condition is found with its semicolon. -/
theorem condition_ensures {α : Type} {good : α → Cursor → Prop} {bad : SyntaxError → Cursor → Prop}
    {next : Expression → Parser α} {cursor after : Cursor} {tree : Expression}
    (derivation : Condition used tree) (tokens : cursor.rest = used ++ later)
    (passes : cursor.Passes used after) (continues : Ensures (next tree) after good bad) :
    Ensures (forCondition >>= fun condition =>
      expect (.symbol .semicolon) .semicolonAfterCondition >>= fun _ => next condition)
      cursor good bad := by
  rw [ensures_bind, forCondition, ensures_bind, ensures_here]
  cases derivation with
  | @absent stop isStop =>
      have kind := (kind_of_rest tokens).trans isStop
      rw [if_pos kind, ensures_pure, token_of_rest tokens]
      apply expect_step tokens isStop
      intro last stopped _
      rwa [stopped.unique passes]
  | @present inside stop tree derivation isStop =>
      have starts := starts_at (derivation.starts.append [stop]) tokens
      have differs : cursor.kind ≠ .symbol .semicolon := by
        intro same
        rw [same] at starts
        cases starts
      rw [List.append_assoc] at tokens
      rw [if_neg differs, ← ensures_bind]
      apply expression_before derivation (by rw [isStop]; rfl) tokens
      intro middle before rest
      apply expect_step rest isStop
      intro last stopped _
      rwa [(before.trans stopped).unique passes]

/-- What may stand after the clauses of a loop. -/
def EndsClauses (later : List Token) : Prop :=
  headKind later = .symbol .rightParen ∨ headKind later = .keyword .then_

/-- The parser finds every increment before the end of the clauses. -/
theorem forIncrement_finds {tree : Option Expression} (derivation : Increment used tree)
    (ends : EndsClauses later) : Finds forIncrement used tree later := by
  intro cursor tokens
  rw [forIncrement, ensures_bind, ensures_peek]
  cases derivation with
  | absent =>
      have kind : cursor.kind = .symbol .rightParen ∨ cursor.kind = .keyword .then_ := by
        rwa [kind_eq, tokens]
      rw [if_pos kind]
      exact ⟨rfl, Passes.refl cursor⟩
  | @present inside value derivation =>
      have starts := starts_at derivation.starts tokens
      have goesOn : ¬(cursor.kind = .symbol .rightParen ∨ cursor.kind = .keyword .then_) := by
        rintro (same | same) <;> rw [same] at starts <;> cases starts
      have stop : (headKind later).extendsExpression = false := by
        obtain kind | kind := ends <;> rw [kind] <;> rfl
      obtain ⟨after, passes, -⟩ := exists_passes tokens
      rw [if_neg goesOn, ensures_map]
      exact (expression_finds derivation stop).ensures tokens passes ⟨rfl, passes⟩

/-- The clauses of a counting loop are found one after the other. -/
theorem clauses_found {α : Type} {good : α → Cursor → Prop} {bad : SyntaxError → Cursor → Prop}
    {next : Option Statement → Expression → Option Expression → Parser α} {cursor after : Cursor}
    {initializer : Option Statement} {condition : Expression} {increment : Option Expression}
    (derivation : Clauses used initializer condition increment) (ends : EndsClauses later)
    (tokens : cursor.rest = used ++ later) (passes : cursor.Passes used after)
    (continues : Ensures (next initializer condition increment) after good bad) :
    Ensures (forInitializer >>= fun initializer => forCondition >>= fun condition =>
      expect (.symbol .semicolon) .semicolonAfterCondition >>= fun _ =>
      forIncrement >>= fun increment => next initializer condition increment) cursor good bad := by
  cases derivation with
  | intro initialized conditioned incremented =>
      simp only [List.append_assoc] at tokens
      apply (forInitializer_finds initialized).step tokens
      intro second passesFirst rest
      obtain ⟨third, passesSecond, remaining⟩ := exists_passes rest
      apply condition_ensures conditioned rest passesSecond
      apply (forIncrement_finds incremented ends).step remaining
      intro fourth passesThird _
      rwa [(passesFirst.trans (passesSecond.trans passesThird)).unique passes]

/-- The parser finds every list of parameters that its budget covers. -/
theorem parameters_finds {budget : Nat} {names : List Name} (derivation : Names used names)
    (within : used.length ≤ budget) (noComma : headKind later ≠ .symbol .comma) :
    Finds (parameters budget) used names later := by
  induction derivation generalizing budget with
  | last isName =>
      intro cursor tokens
      cases budget with
      | zero => cases within
      | succ budget =>
          rw [parameters, ensures_bind, ensures_here]
          apply skip_step tokens
          intro after named rest
          rw [if_pos ((kind_of_rest tokens).trans isName), token_of_rest tokens]
          apply accept_stay
          · rwa [kind_eq, rest]
          · exact ⟨rfl, named⟩
  | more isName isComma _ inductionHypothesis =>
      intro cursor tokens
      rw [List.length_cons, List.length_cons] at within
      cases budget with
      | zero => omega
      | succ budget =>
          rw [parameters, ensures_bind, ensures_here]
          apply skip_step tokens
          intro second named rest
          rw [if_pos ((kind_of_rest tokens).trans isName), token_of_rest tokens]
          apply accept_step rest isComma
          intro third separated remaining
          have fits : _ ≤ budget := Nat.le_of_succ_le (Nat.le_of_succ_le_succ within)
          rw [if_pos rfl]
          apply (inductionHypothesis fits).step remaining
          intro after passes _
          exact ⟨rfl, named.trans (separated.trans passes)⟩

end Clauses

/-- The run from the cursor gives this value, leaves the rest and adds no error. -/
def Succeeds {α : Type} (cursor : Cursor) (value : α) (rest : List Token) (found : α)
    (after : Cursor) : Prop :=
  found = value ∧ after.rest = rest ∧ after.errors = cursor.errors

/-- The parser accepts every statement of at most so many tokens. -/
def Accepts (limit : Nat) (item : Parser Statement) : Prop :=
  ∀ ⦃cursor : Cursor⦄ ⦃tree : Statement⦄ ⦃rest : List Token⦄, Derives cursor.rest tree rest →
    cursor.rest.length ≤ limit → Ensures item cursor (Succeeds cursor tree rest) fun _ _ => False

/-- After an accepted statement the run continues at the tokens that it leaves. -/
theorem Accepts.ensures {limit : Nat} {item : Parser Statement} {cursor : Cursor}
    {tree : Statement} {tokens rest : List Token} {good : Statement → Cursor → Prop}
    {bad : SyntaxError → Cursor → Prop} (accepts : Accepts limit item)
    (derivation : Derives tokens tree rest) (here : cursor.rest = tokens)
    (within : tokens.length ≤ limit)
    (continues : ∀ after, after.rest = rest → after.errors = cursor.errors → good tree after) :
    Ensures item cursor good bad := by
  apply (accepts (here ▸ derivation) (here ▸ within)).mono
  · rintro found after ⟨rfl, remaining, errors⟩
    exact continues after remaining errors
  · exact fun _ _ impossible => impossible.elim

section Statements

variable {limit depth : Nat} {inner : Parser Statement} {cursor : Cursor} {rest : List Token}

/-- A list of statements goes on where a statement starts. -/
theorem closes_of_starts (starts : startsLine cursor.kind = true) :
    cursor.closes depth = false := by
  rw [Bool.eq_false_iff, ne_eq, closes_iff]
  rintro (same | ⟨-, same⟩) <;> rw [same] at starts <;> cases starts

section Rounds

variable {item : Parser Statement} {budget : Nat} {place : Cursor}

/-- A list goes on after a statement. -/
theorem statements_of_ok {tree : Statement} (goesOn : cursor.closes depth = false)
    (run : item (cursor.mark depth) = .ok tree place) :
    statements item depth (budget + 1) cursor =
      (tree :: (statements item depth budget place).1, (statements item depth budget place).2) := by
  have marked : ¬(cursor.mark depth).closes depth = true := by
    rw [Bool.not_eq_true]
    exact goesOn
  rw [statements, if_neg marked, attempt, run]
  rfl

/-- A list goes on after a mistake from where recovery takes it. -/
theorem statements_of_error {error : SyntaxError} (goesOn : cursor.closes depth = false)
    (run : item (cursor.mark depth) = .error error place) :
    statements item depth (budget + 1) cursor =
      statements item depth budget ((place.note error).recover depth) := by
  have marked : ¬(cursor.mark depth).closes depth = true := by
    rw [Bool.not_eq_true]
    exact goesOn
  rw [statements, if_neg marked, attempt, run]
  rfl

end Rounds

/-- A list of statements is accepted up to where it closes. -/
theorem statements_accept {budget : Nat} {trees : List Statement} {item : Parser Statement}
    (accepts : Accepts limit item) (derivation : Sequence cursor.rest trees rest)
    (enough : cursor.rest.length ≤ budget) (within : cursor.rest.length ≤ limit)
    (closing : headKind rest = .eof ∨ (depth ≠ 0 ∧ headKind rest = .dedent)) :
    Succeeds cursor trees rest (statements item depth budget cursor).1
      (statements item depth budget cursor).2 := by
  induction budget generalizing cursor trees with
  | zero =>
      generalize here : cursor.rest = tokens at *
      cases derivation with
      | nil => exact ⟨rfl, here, rfl⟩
      | cons first others => exact absurd first.shorter (by omega)
  | succ budget inductionHypothesis =>
      generalize here : cursor.rest = tokens at *
      cases derivation with
      | nil =>
          have ends : (cursor.mark depth).closes depth = true := by
            rw [closes_iff, kind_eq]
            change headKind cursor.rest = _ ∨ _ ∧ headKind cursor.rest = _
            rwa [here]
          rw [statements, if_pos ends]
          exact ⟨rfl, here, rfl⟩
      | cons first others =>
          have shorter := first.shorter
          have starts : startsLine cursor.kind = true :=
            starts_at first.starts (here.trans (List.append_nil _).symm)
          obtain ⟨found, after, run, rfl, rfl, errors⟩ :=
            (@accepts (cursor.mark depth) _ _ (here ▸ first) (here ▸ within)).succeeds
          rw [statements_of_ok (closes_of_starts starts) run]
          obtain ⟨same, last, noErrors⟩ := inductionHypothesis others (by omega) (by omega)
          exact ⟨congrArg (found :: ·) same, last, noErrors.trans errors⟩

/-- A block ends after its dedent, or where no token is left. -/
theorem block_step {item : Parser Statement} {budget : Nat} {good : List Statement → Cursor → Prop}
    {bad : SyntaxError → Cursor → Prop}
    (ends : (∃ dedent : Token, dedent.kind = .dedent ∧
        (statements item depth budget cursor).2.rest = dedent :: rest) ∨
      ((statements item depth budget cursor).2.rest = [] ∧ rest = []))
    (continues : ∀ after : Cursor, after.rest = rest →
      after.errors = (statements item depth budget cursor).2.errors →
      good (statements item depth budget cursor).1 after) :
    Ensures (block item depth budget) cursor good bad := by
  rw [ensures_block]
  obtain ⟨dedent, isDedent, last⟩ | ⟨last, rfl⟩ := ends
  · have closed := next_of_rest last
    have kind := (kind_of_rest last).trans isDedent
    refine ⟨fun _ => ?_, fun open_ => absurd kind open_⟩
    exact continues _ (closed.rest_eq last) closed.errors
  · refine ⟨fun dedent => ?_, fun _ => continues _ last rfl⟩
    rw [kind_eq, last] at dedent
    cases dedent

/-- A block is accepted after its indent. -/
theorem block_accepts {item : Parser Statement} {good : List Statement → Cursor → Prop}
    {bad : SyntaxError → Cursor → Prop} {indent : Token} {inside : List Token}
    {body : List Statement} (accepts : Accepts limit item)
    (derivation : Block (indent :: inside) body rest) (here : cursor.rest = inside)
    (within : inside.length ≤ limit)
    (continues : ∀ after, after.rest = rest → after.errors = cursor.errors → good body after) :
    Ensures (block item (depth + 1) limit) cursor good bad := by
  subst here
  cases derivation with
  | @closed _ dedent _ _ _ _ sequence isDedent =>
      have closing : headKind (dedent :: rest) = .eof ∨
          (depth + 1 ≠ 0 ∧ headKind (dedent :: rest) = .dedent) :=
        .inr ⟨Nat.succ_ne_zero depth, isDedent⟩
      obtain ⟨rfl, last, errors⟩ := statements_accept accepts sequence within within closing
      apply block_step (.inl ⟨dedent, isDedent, last⟩)
      exact fun after left same => continues after left (same.trans errors)
  | ended _ sequence =>
      have closing : headKind [] = .eof ∨ (depth + 1 ≠ 0 ∧ headKind [] = .dedent) := .inl rfl
      obtain ⟨rfl, last, errors⟩ := statements_accept accepts sequence within within closing
      apply block_step (.inr ⟨last, rfl⟩)
      exact fun after left same => continues after left (same.trans errors)

section Headed

variable {word then_ : Token} {tokens inside : List Token} {condition : Expression}
  {good : Statement → Cursor → Prop} {bad : SyntaxError → Cursor → Prop}

/-- After its header, a loop reads its body. -/
theorem whileStatement_step (derivation : Assignment tokens condition)
    (isThen : then_.kind = .keyword .then_)
    (here : cursor.rest = word :: (tokens ++ then_ :: inside))
    (continues : ∀ place, cursor.Passes (word :: (tokens ++ [then_])) place → place.rest = inside →
      Ensures inner place (fun body => good (.while_ condition body)) bad) :
    Ensures (skip >>= fun _ => whileStatement inner) cursor good bad := by
  apply skip_step here
  intro second worded remaining
  apply expression_before derivation (by rw [isThen]; rfl) remaining
  intro third conditioned last
  apply expect_step last isThen
  intro fourth turned started
  rw [ensures_bind]
  exact continues fourth (worded.trans (conditioned.trans turned)) started

/-- The parser accepts every loop whose body it accepts. -/
theorem whileStatement_accepts {body : Statement} (accepts : Accepts limit inner)
    (derivation : Assignment tokens condition) (isThen : then_.kind = .keyword .then_)
    (looped : Derives inside body rest) (here : cursor.rest = word :: (tokens ++ then_ :: inside))
    (within : inside.length ≤ limit) :
    Ensures (skip >>= fun _ => whileStatement inner) cursor
      (Succeeds cursor (.while_ condition body) rest) fun _ _ => False := by
  apply whileStatement_step derivation isThen here
  intro place header started
  apply accepts.ensures looped started within
  intro after left errors
  exact ⟨rfl, left, errors.trans header.errors⟩

/-- After its header, an `if` reads its first branch; what comes after that decides on the second
one. -/
theorem ifStatement_step (derivation : Assignment tokens condition)
    (isThen : then_.kind = .keyword .then_)
    (here : cursor.rest = word :: (tokens ++ then_ :: inside))
    (continues : ∀ place, cursor.Passes (word :: (tokens ++ [then_])) place → place.rest = inside →
      Ensures inner place (fun success after =>
        Ensures (accept (.keyword .else_) >>= fun found =>
          if found = true then expect (.keyword .then_) .thenAfterElse >>= fun _ =>
            inner >>= fun failure => pure (.if_ condition success (some failure))
          else pure (.if_ condition success none)) after good bad) bad) :
    Ensures (skip >>= fun _ => ifStatement inner) cursor good bad := by
  apply skip_step here
  intro second worded remaining
  apply expression_before derivation (by rw [isThen]; rfl) remaining
  intro third conditioned last
  apply expect_step last isThen
  intro fourth turned started
  rw [ensures_bind]
  exact continues fourth (worded.trans (conditioned.trans turned)) started

/-- After an `else`, an `if` reads its second branch. -/
theorem else_step {else_ next : Token} {success : Statement}
    (isElse : else_.kind = .keyword .else_) (isNext : next.kind = .keyword .then_)
    (here : cursor.rest = else_ :: next :: inside)
    (continues : ∀ place, cursor.Passes [else_, next] place → place.rest = inside →
      Ensures inner place (fun failure => good (.if_ condition success (some failure))) bad) :
    Ensures (accept (.keyword .else_) >>= fun found =>
      if found = true then expect (.keyword .then_) .thenAfterElse >>= fun _ =>
        inner >>= fun failure => pure (.if_ condition success (some failure))
      else pure (.if_ condition success none)) cursor good bad := by
  apply accept_step here isElse
  intro second turned remaining
  apply expect_step remaining isNext
  intro third opened started
  rw [ensures_bind]
  exact continues third (turned.trans opened) started

/-- The first branch is accepted; what comes after it decides on the second one. -/
theorem ifStatement_accepts {success tree : Statement} {middle : List Token}
    (accepts : Accepts limit inner) (derivation : Assignment tokens condition)
    (isThen : then_.kind = .keyword .then_) (first : Derives inside success middle)
    (here : cursor.rest = word :: (tokens ++ then_ :: inside)) (within : inside.length ≤ limit)
    (branch : ∀ place : Cursor, place.rest = middle → place.errors = cursor.errors →
      Ensures (accept (.keyword .else_) >>= fun found =>
        if found = true then expect (.keyword .then_) .thenAfterElse >>= fun _ =>
          inner >>= fun failure => pure (.if_ condition success (some failure))
        else pure (.if_ condition success none)) place (Succeeds cursor tree rest)
        fun _ _ => False) :
    Ensures (skip >>= fun _ => ifStatement inner) cursor (Succeeds cursor tree rest)
      fun _ _ => False := by
  apply ifStatement_step derivation isThen here
  intro place header started
  apply accepts.ensures first started within
  intro after left errors
  exact branch after left (errors.trans header.errors)

/-- After its clauses, a loop reads its body. -/
theorem forStatement_step {initializer : Option Statement} {increment : Option Expression}
    (header : Header tokens initializer condition increment)
    (isThen : then_.kind = .keyword .then_)
    (here : cursor.rest = word :: (tokens ++ then_ :: inside))
    (continues : ∀ place, cursor.Passes (word :: (tokens ++ [then_])) place → place.rest = inside →
      Ensures inner place
        (fun body => good (Statement.forLoop initializer condition increment body)) bad) :
    Ensures (skip >>= fun _ => forStatement inner) cursor good bad := by
  have bodied {place : Cursor} (headed : cursor.Passes (word :: tokens) place)
      (started : place.rest = then_ :: inside) :
      Ensures (expect (.keyword .then_) .thenAfterFor >>= fun _ => inner >>= fun body =>
        pure (Statement.forLoop initializer condition increment body)) place good bad := by
    apply expect_step started isThen
    intro fourth turned remaining
    rw [ensures_bind]
    exact continues fourth (headed.trans turned) remaining
  apply skip_step here
  intro second worded remaining
  cases header with
  | @parenthesized opening closing tokens _ _ _ isOpening clauses isClosing =>
      simp only [List.cons_append, List.append_assoc, List.nil_append] at remaining
      apply accept_step remaining isOpening
      intro third opened started
      obtain ⟨fourth, passes, last⟩ := exists_passes started
      have ends : EndsClauses (closing :: then_ :: inside) := .inl isClosing
      apply clauses_found clauses ends started passes
      rw [if_pos rfl]
      apply expect_step last isClosing
      intro fifth closed turned
      exact bodied (worded.trans (opened.trans (passes.trans closed))) turned
  | plain differs clauses =>
      obtain ⟨third, passes, last⟩ := exists_passes remaining
      apply accept_stay
      · rw [kind_eq, remaining]
        cases tokens with
        | nil => exact fun same => by cases isThen.symm.trans same
        | cons token others => exact differs
      · have ends : EndsClauses (then_ :: inside) := .inr isThen
        apply clauses_found clauses ends remaining passes
        rw [if_neg Bool.false_ne_true]
        exact bodied (worded.trans passes) last

/-- The parser accepts every counting loop whose body it accepts. -/
theorem forStatement_accepts {initializer : Option Statement} {increment : Option Expression}
    {body : Statement} (accepts : Accepts limit inner)
    (header : Header tokens initializer condition increment)
    (isThen : then_.kind = .keyword .then_) (looped : Derives inside body rest)
    (here : cursor.rest = word :: (tokens ++ then_ :: inside)) (within : inside.length ≤ limit) :
    Ensures (skip >>= fun _ => forStatement inner) cursor
      (Succeeds cursor (.forLoop initializer condition increment body) rest)
      fun _ _ => False := by
  apply forStatement_step header isThen here
  intro place headed started
  apply accepts.ensures looped started within
  intro after left errors
  exact ⟨rfl, left, errors.trans headed.errors⟩

end Headed

section Functions

variable {word name colon equal : Token} {tokens gap : List Token} {names : List Name}

/-- After its parameters and its indent, a function reads its body. -/
theorem function_step {body : Parser (List Statement)} {good : Statement → Cursor → Prop}
    {bad : SyntaxError → Cursor → Prop} {budget : Nat} {indent : Token} {inside : List Token}
    (isName : name.kind = .name) (isColon : colon.kind = .symbol .colon)
    (listed : Parameters tokens names) (isEqual : equal.kind = .symbol .equal)
    (broken : LineBreak gap) (isIndent : indent.kind = .indent)
    (here : cursor.rest = word :: name :: colon :: (tokens ++ equal :: (gap ++ indent :: inside)))
    (enough : tokens.length ≤ budget)
    (continues : ∀ place,
      cursor.Passes (word :: name :: colon :: (tokens ++ equal :: (gap ++ [indent]))) place →
      place.rest = inside →
      Ensures body place (fun trees => good (.func (.ofToken name) names trees)) bad) :
    Ensures (skip >>= fun _ => function body budget) cursor good bad := by
  have assigned {place : Cursor} (headed : cursor.Passes (word :: name :: colon :: tokens) place)
      (started : place.rest = equal :: (gap ++ indent :: inside)) :
      Ensures (expect (.symbol .equal) .equalAfterParameters >>= fun _ => accept .newline >>=
        fun _ => expect .indent .functionBlock >>= fun _ => body >>=
        fun trees => pure (Statement.func (.ofToken name) names trees)) place good bad := by
    apply expect_step started isEqual
    intro after signed remaining
    cases broken with
    | absent =>
        apply accept_stay
        · rw [kind_eq, remaining]
          exact fun same => by cases isIndent.symm.trans same
        · apply expect_step remaining isIndent
          intro last indented left
          rw [ensures_bind]
          exact continues last (headed.trans (signed.trans indented)) left
    | present isNewline =>
        apply accept_step remaining isNewline
        intro third ended further
        apply expect_step further isIndent
        intro last indented left
        rw [ensures_bind]
        exact continues last (headed.trans (signed.trans (ended.trans indented))) left
  apply skip_step here
  intro second worded remaining
  apply expect_step remaining isName
  intro third named left
  apply expect_step left isColon
  intro fourth separated last
  have start := worded.trans (named.trans separated)
  rw [ensures_bind, ensures_peek]
  dsimp only
  cases listed with
  | none =>
      rw [if_pos ((kind_of_rest last).trans isEqual)]
      exact assigned start last
  | some listed =>
      have differs : fourth.kind ≠ .symbol .equal := by
        rw [kind_eq, last]
        cases listed with
        | last isFirst => exact fun same => by cases isFirst.symm.trans same
        | more isFirst => exact fun same => by cases isFirst.symm.trans same
      have noComma : headKind (equal :: (gap ++ indent :: inside)) ≠ .symbol .comma :=
        fun same => by cases isEqual.symm.trans same
      rw [if_neg differs]
      apply (parameters_finds listed enough noComma).step last
      intro after passes signed
      exact assigned (start.trans passes) signed

/-- The parser accepts every function whose body it accepts. -/
theorem function_accepts {item : Parser Statement} {inside : List Token} {body : List Statement}
    (accepts : Accepts limit item) (isName : name.kind = .name)
    (isColon : colon.kind = .symbol .colon) (listed : Parameters tokens names)
    (isEqual : equal.kind = .symbol .equal) (broken : LineBreak gap)
    (derivation : Block inside body rest)
    (here : cursor.rest = word :: name :: colon :: (tokens ++ equal :: (gap ++ inside)))
    (within : cursor.rest.length ≤ limit + 1) :
    Ensures (skip >>= fun _ => function (block item (depth + 1) limit) limit) cursor
      (Succeeds cursor (.func (.ofToken name) names body) rest) fun _ _ => False := by
  obtain ⟨indent, statements, rfl, isIndent⟩ := derivation.starts
  rw [here] at within
  simp only [List.length_cons, List.length_append] at within
  apply function_step isName isColon listed isEqual broken isIndent here (by omega)
  intro place headed started
  apply block_accepts accepts derivation started (by omega)
  intro after left errors
  exact ⟨rfl, left, errors.trans headed.errors⟩

end Functions

/-- A simple statement is accepted with its terminator. -/
theorem Finds.succeeds {parser : Parser Statement} {used start : List Token} {tree : Statement}
    {middle : Cursor} (finds : Finds parser used tree rest) (passes : cursor.Passes start middle)
    (here : middle.rest = used ++ rest) :
    Ensures parser middle (Succeeds cursor tree rest) fun _ _ => False := by
  obtain ⟨after, further, left⟩ := exists_passes here
  exact finds.ensures here further ⟨rfl, left, (passes.trans further).errors⟩

/-- Every budget accepts the statements that it covers. -/
theorem statementWithin_accepts (limit depth : Nat) :
    Accepts limit (statementWithin limit depth) := by
  induction limit generalizing depth with
  | zero =>
      intro cursor tree rest derivation within
      have nonempty := derivation.shorter
      omega
  | succ limit inductionHypothesis =>
      intro cursor tree rest derivation within
      have inner := inductionHypothesis depth
      have item := inductionHypothesis (depth + 1)
      rw [statementWithin, ensures_bind, ensures_here]
      generalize here : cursor.rest = tokens at derivation
      have length : tokens.length ≤ limit + 1 := here ▸ within
      cases derivation with
      | if_ word condition isThen success noElse =>
          rw [(kind_of_rest here).trans word]
          simp only [List.length_cons, List.length_append] at length
          apply ifStatement_accepts inner condition isThen success here (by omega)
          intro place left errors
          apply accept_stay
          · rwa [kind_eq, left]
          · exact ⟨rfl, left, errors⟩
      | ifElse word condition isThen success isElse isNext failure =>
          rw [(kind_of_rest here).trans word]
          have shorter := success.shorter
          simp only [List.length_cons, List.length_append] at length shorter
          apply ifStatement_accepts inner condition isThen success here (by omega)
          intro place left errors
          apply else_step isElse isNext left
          intro second turned started
          apply inner.ensures failure started (by omega)
          intro after last noErrors
          exact ⟨rfl, last, noErrors.trans (turned.errors.trans errors)⟩
      | while_ word condition isThen body =>
          rw [(kind_of_rest here).trans word]
          simp only [List.length_cons, List.length_append] at length
          exact whileStatement_accepts inner condition isThen body here (by omega)
      | for_ word header isThen body =>
          rw [(kind_of_rest here).trans word]
          simp only [List.length_cons, List.length_append] at length
          exact forStatement_accepts inner header isThen body here (by omega)
      | func word isName isColon listed isEqual broken body =>
          rw [(kind_of_rest here).trans word]
          exact function_accepts item isName isColon listed isEqual broken body here within
      | let_ word derivation =>
          rw [(kind_of_rest here).trans word]
          apply skip_step here
          intro middle worded remaining
          exact (variableDeclaration_finds derivation).succeeds worded remaining
      | return_ word derivation =>
          rw [(kind_of_rest here).trans word, token_of_rest here]
          apply skip_step here
          intro middle worded remaining
          exact (returnStatement_finds derivation).succeeds worded remaining
      | block derivation =>
          obtain ⟨indent, inside, rfl, isIndent⟩ := derivation.starts
          rw [(kind_of_rest here).trans isIndent]
          apply skip_step here
          intro middle indented remaining
          rw [ensures_bind]
          apply block_accepts item derivation remaining (Nat.le_of_succ_le_succ length)
          intro after left errors
          exact ⟨rfl, left, errors.trans indented.errors⟩
      | simple derivation =>
          have starts := starts_at derivation.starts here
          have found := (expressionStatement_finds derivation).succeeds (Passes.refl cursor) here
          split
          case h_8 => exact found
          all_goals
            next kind =>
              rw [kind] at starts
              cases starts

end Statements

end Offside.Parser

namespace Offside

open Grammar

/-- The program parser accepts exactly the grammar: a script has no syntax error when its tokens
derive a list of statements, and then these statements are its trees. -/
theorem program_exact (tokens : List Token) (trees : List Statement) :
    Sequence (Cursor.script tokens) trees [] ↔
      (Program.ofTokens tokens).errors = [] ∧ (Program.ofTokens tokens).statements = trees := by
  constructor
  · intro derivation
    rw [← Cursor.ofTokens_rest] at derivation
    obtain ⟨same, -, errors⟩ := Parser.statements_accept (Parser.statementWithin_accepts _ 0)
      derivation (Nat.le_refl _) (Nat.le_refl _) (.inl rfl)
    exact ⟨errors, same⟩
  · rintro ⟨errors, rfl⟩
    obtain ⟨listed, sequence⟩ := Parser.program_ensures tokens
    have within := (Cursor.ofTokens_within tokens).later listed.advances
    have empty := within.rest_eq_nil listed.kind_eq_eof
    have derivation := sequence errors
    rwa [empty] at derivation

end Offside
