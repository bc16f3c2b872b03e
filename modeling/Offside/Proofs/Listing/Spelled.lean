/-
This file proves that the names and constants of a tree are spelled as lexemes are, also where the
script around it has mistakes.
-/

import Offside.Proofs.Lexeme.Rescan
import Offside.Proofs.Number.Reading
import Offside.Proofs.Statement.Sound

namespace Offside

/-- The name is a word and not a keyword. -/
def Name.Spelled (name : Name) : Prop :=
  Word name.text.toList ∧ ∀ keyword : Keyword, name.text.toList ≠ keyword.text.toList

/-- The constant is one that a literal can stand for. -/
def Constant.Spelled : Constant → Prop
  | .number value => Number.IsMagnitude value
  | .string value => '"' ∉ value.toList
  | _ => True

mutual

/-- All names and constants of the expression can be written. -/
def Expression.Spelled : Expression → Prop
  | .constant value _ => value.Spelled
  | .reference name => name.Spelled
  | .group inner => inner.Spelled
  | .unary _ operand _ => operand.Spelled
  | .binary _ left right _ => left.Spelled ∧ right.Spelled
  | .logic _ left right _ => left.Spelled ∧ right.Spelled
  | .assign name value => name.Spelled ∧ value.Spelled
  | .call callee arguments _ => callee.Spelled ∧ Expression.SpelledAll arguments

def Expression.SpelledAll : List Expression → Prop
  | [] => True
  | expression :: rest => expression.Spelled ∧ Expression.SpelledAll rest

end

mutual

def Statement.Spelled : Statement → Prop
  | .expression value => value.Spelled
  | .if_ condition success failure =>
    condition.Spelled ∧ success.Spelled ∧ Statement.SpelledFailure failure
  | .while_ condition body => condition.Spelled ∧ body.Spelled
  | .func name parameters body =>
    name.Spelled ∧ (∀ parameter ∈ parameters, parameter.Spelled) ∧ Statement.SpelledAll body
  | .let_ name initial => name.Spelled ∧ ∀ value ∈ initial, value.Spelled
  | .return_ _ value => ∀ result ∈ value, result.Spelled
  | .block statements => Statement.SpelledAll statements

def Statement.SpelledFailure : Option Statement → Prop
  | none => True
  | some statement => statement.Spelled

def Statement.SpelledAll : List Statement → Prop
  | [] => True
  | statement :: rest => statement.Spelled ∧ Statement.SpelledAll rest

end

theorem Statement.spelledAll_iff {statements : List Statement} :
    SpelledAll statements ↔ ∀ statement ∈ statements, statement.Spelled := by
  induction statements with
  | nil => simp [SpelledAll]
  | cons statement rest inductionHypothesis => simp [SpelledAll, inductionHypothesis]

section Leaves

variable {text : List Char} {kind : Kind} {literal : Option Literal}

/-- A name is a word and no keyword. -/
theorem Denotes.name_spelled (denotes : Denotes text kind literal) (isName : kind = .name) :
    Word text ∧ ∀ keyword : Keyword, text ≠ keyword.text.toList := by
  cases denotes with
  | name isWord differs => exact ⟨isWord, differs⟩
  | _ => cases isName

/-- What a lexeme stands for is spelled, unless it is a name. -/
theorem Denotes.literal_spelled (denotes : Denotes text kind literal) :
    (Constant.ofLiteral literal).Spelled ∨ kind = .name := by
  cases denotes with
  | symbol | keyword => exact .inl trivial
  | whole | fraction => exact .inl (Number.isMagnitude_ofBits _)
  | @string body free =>
      left
      change '"' ∉ (String.ofList body).toList
      rwa [String.toList_ofList]
  | name => exact .inr rfl

end Leaves

/-- The token comes from the layout, or it is spelled as lexemes are. -/
def Token.Genuine (token : Token) : Prop :=
  token.kind.isLayout = false → Denotes token.lexeme.toList token.kind token.literal

section Trees

variable {token : Token}

/-- A genuine name token makes a spelled name. -/
theorem Token.Genuine.name (genuine : token.Genuine) (kind : token.kind = .name) :
    (Name.ofToken token).Spelled :=
  (genuine (by rw [kind]; rfl)).name_spelled kind

/-- A genuine literal makes a spelled constant. -/
theorem Token.Genuine.constant {value : Constant} (genuine : token.Genuine)
    (same : Constant.ofToken? token = some value) : value.Spelled := by
  have literal (written : token.kind.isLayout = false) (differs : token.kind ≠ .name) :
      (Constant.ofLiteral token.literal).Spelled :=
    (genuine written).literal_spelled.resolve_right differs
  unfold Constant.ofToken? at same
  split at same
  next => cases same; trivial
  next => cases same; trivial
  next => cases same; trivial
  next kind => cases same; exact literal (by rw [kind]; rfl) (by rw [kind]; decide)
  next kind => cases same; exact literal (by rw [kind]; rfl) (by rw [kind]; decide)
  next => cases same

/-- A counted name is spelled when the name is. -/
theorem Expression.stepped_spelled (operator : BinaryOperator) {name sign : Token}
    (spelled : (Name.ofToken name).Spelled) : (Expression.stepped operator name sign).Spelled :=
  ⟨spelled, spelled, (by decide : Number.IsMagnitude 1)⟩

/-- Joined expressions are spelled when both sides are. -/
theorem Expression.join_spelled (connective : Connective) {left right : Expression}
    (line : Nat) (spelled : left.Spelled) (spelledToo : right.Spelled) :
    (connective.join left right line).Spelled := by
  cases connective <;> exact ⟨spelled, spelledToo⟩

namespace Grammar

mutual

/-- An expression of genuine tokens is spelled as they are. -/
theorem Assignment.spelled {tokens : List Token} {tree : Expression} :
    Assignment tokens tree → (∀ token ∈ tokens, token.Genuine) → tree.Spelled
  | .assign name _ value => fun genuine => by
      rw [List.forall_mem_cons, List.forall_mem_cons] at genuine
      exact ⟨genuine.1.name name, value.spelled genuine.2.2⟩
  | .increment name _ => fun genuine =>
      Expression.stepped_spelled .add ((genuine _ List.mem_cons_self).name name)
  | .decrement name _ => fun genuine =>
      Expression.stepped_spelled .subtract ((genuine _ List.mem_cons_self).name name)
  | .chain derivation => derivation.spelled

/-- Chains of genuine tokens are spelled. -/
theorem Chain.spelled {levels : List Level} {tokens : List Token} {tree : Expression} :
    Chain levels tokens tree → (∀ token ∈ tokens, token.Genuine) → tree.Spelled
  | .operand derivation => derivation.spelled
  | .single derivation => derivation.spelled
  | .join left _ right => fun genuine => by
      rw [List.forall_mem_append, List.forall_mem_cons] at genuine
      exact Expression.join_spelled _ _ (left.spelled genuine.1) (right.spelled genuine.2.2)

/-- Operands of genuine tokens are spelled. -/
theorem Unary.spelled {tokens : List Token} {tree : Expression} :
    Unary tokens tree → (∀ token ∈ tokens, token.Genuine) → tree.Spelled
  | .operator _ operand => fun genuine => operand.spelled (List.forall_mem_cons.1 genuine).2
  | .call derivation => derivation.spelled

/-- Calls of genuine tokens are spelled. -/
theorem Call.spelled {tokens : List Token} {tree : Expression} :
    Call tokens tree → (∀ token ∈ tokens, token.Genuine) → tree.Spelled
  | .primary derivation => derivation.spelled
  | .empty callee _ _ => fun genuine =>
      ⟨callee.spelled (List.forall_mem_append.1 genuine).1, trivial⟩
  | .apply callee _ inside _ => fun genuine => by
      rw [List.forall_mem_append, List.forall_mem_cons, List.forall_mem_append] at genuine
      exact ⟨callee.spelled genuine.1, inside.spelled genuine.2.2.1⟩

/-- Arguments of genuine tokens are spelled. -/
theorem Arguments.spelled {tokens : List Token} {values : List Expression} :
    Arguments tokens values → (∀ token ∈ tokens, token.Genuine) → Expression.SpelledAll values
  | .last derivation => fun genuine => ⟨derivation.spelled genuine, trivial⟩
  | .more derivation _ others => fun genuine => by
      rw [List.forall_mem_append, List.forall_mem_cons] at genuine
      exact ⟨derivation.spelled genuine.1, others.spelled genuine.2.2⟩

/-- Primaries of genuine tokens are spelled. -/
theorem Primary.spelled {tokens : List Token} {tree : Expression} :
    Primary tokens tree → (∀ token ∈ tokens, token.Genuine) → tree.Spelled
  | .literal same => fun genuine => (genuine _ List.mem_cons_self).constant same
  | .reference name => fun genuine => (genuine _ List.mem_cons_self).name name
  | .group _ inside _ => fun genuine => by
      rw [List.forall_mem_cons, List.forall_mem_append] at genuine
      exact inside.spelled genuine.2.1

end

end Grammar

end Trees

/-- All tokens that are left are genuine. -/
def Cursor.Genuine (cursor : Cursor) : Prop := ∀ token ∈ cursor.rest, token.Genuine

namespace Cursor.Genuine

variable {cursor after : Cursor}

/-- Genuine tokens stay genuine as the cursor moves on. -/
theorem later (genuine : cursor.Genuine) (advances : cursor.Advances after) : after.Genuine := by
  obtain ⟨used, rest, -⟩ := advances.passed
  intro token member
  exact genuine token (rest ▸ List.mem_append_right used member)

theorem next (genuine : cursor.Genuine) : cursor.next.Genuine :=
  genuine.later (next_advances cursor)

/-- The token at the cursor is genuine. -/
theorem here (genuine : cursor.Genuine) : cursor.token.Genuine := by
  unfold token
  split
  next => exact fun written => by cases written
  next same => exact genuine _ (by rw [same]; exact List.mem_cons_self)

end Cursor.Genuine

namespace Parser

open Cursor

variable {α β : Type} {good : α → Prop} {better : β → Prop}

/-- From genuine tokens the parser makes good values only. -/
def Yields (good : α → Prop) (parser : Parser α) : Prop :=
  ∀ cursor : Cursor, cursor.Genuine →
    Ensures parser cursor (fun value after => good value ∧ after.Genuine) fun _ after =>
      after.Genuine

namespace Yields

theorem pure {value : α} (holds : good value) : Yields good (pure value) :=
  fun _ genuine => ⟨holds, genuine⟩

/-- Good values of one parser lead to good values of the next. -/
theorem bind {parser : Parser α} {next : α → Parser β} (yields : Yields good parser)
    (continues : ∀ value, good value → Yields better (next value)) :
    Yields better (parser >>= next) := by
  intro cursor genuine
  rw [ensures_bind]
  apply (yields cursor genuine).mono
  · exact fun value after ⟨holds, later⟩ => continues value holds after later
  · exact fun _ _ later => later

/-- A map that keeps values good keeps them good in a parser. -/
theorem map {parser : Parser α} {transform : α → β} (yields : Yields good parser)
    (continues : ∀ value, good value → better (transform value)) :
    Yields better (transform <$> parser) := by
  intro cursor genuine
  rw [ensures_map]
  apply (yields cursor genuine).mono
  · exact fun value after ⟨holds, later⟩ => ⟨continues value holds, later⟩
  · exact fun _ _ later => later

theorem ite {condition : Prop} [Decidable condition] {yes no : Parser α} (first : Yields good yes)
    (second : Yields good no) : Yields good (if condition then yes else no) := by
  split
  · exact first
  · exact second

theorem here : Yields Cursor.Genuine here := fun _ genuine => ⟨genuine, genuine⟩

theorem peek : Yields (fun _ => True) peek := fun _ genuine => ⟨trivial, genuine⟩

theorem skip : Yields (fun _ => True) skip := fun _ genuine => ⟨trivial, genuine.next⟩

theorem blame (mistake : Mistake) : Yields good (blame mistake) := fun _ genuine => genuine

theorem blameAt (place : Cursor) (mistake : Mistake) : Yields good (blameAt place mistake) :=
  fun _ genuine => genuine

theorem accept (kind : Kind) : Yields (fun _ => True) (accept kind) := by
  intro cursor genuine
  rw [ensures_accept]
  exact ⟨fun _ => ⟨trivial, genuine.next⟩, fun _ => ⟨trivial, genuine⟩⟩

/-- An expected token is genuine and has its kind. -/
theorem expect (kind : Kind) (requirement : Requirement) :
    Yields (fun token => token.Genuine ∧ token.kind = kind) (expect kind requirement) := by
  intro cursor genuine
  rw [ensures_expect]
  exact ⟨fun present => ⟨⟨genuine.here, present⟩, genuine.next⟩, fun _ => genuine⟩

theorem terminator (requirement : Requirement) :
    Yields (fun _ => True) (terminator requirement) := by
  intro cursor genuine
  rw [ensures_terminator]
  exact ⟨fun _ => ⟨trivial, genuine.next⟩, fun _ => genuine⟩

/-- Expressions of genuine tokens are spelled. -/
theorem expression : Yields Expression.Spelled expression := by
  intro cursor genuine
  apply (expression_reads cursor).mono
  · rintro tree after ⟨used, walks, derivation⟩
    refine ⟨derivation.spelled fun token member => ?_, genuine.later walks.toPasses.advances⟩
    exact genuine token (walks.rest ▸ List.mem_append_left _ member)
  · rintro error after ⟨before, place, between, mistake, start, further, -⟩
    exact genuine.later (start.trans further).toPasses.advances

end Yields

section Statements

variable {inner : Parser Statement}

/-- Expression statements of genuine tokens are spelled. -/
theorem expressionStatement_yields : Yields Statement.Spelled expressionStatement :=
  .bind .expression fun _ spelled => .bind (.terminator _) fun _ _ => .pure spelled

theorem someExpression_yields :
    Yields (fun value => ∀ tree ∈ value, tree.Spelled) (some <$> expression) :=
  .map .expression fun _ spelled _ same => Option.some.inj same ▸ spelled

/-- Variable declarations of genuine tokens are spelled. -/
theorem variableDeclaration_yields : Yields Statement.Spelled variableDeclaration := by
  refine .bind (.expect _ _) fun name ⟨genuine, kind⟩ => .bind (.accept _) fun found _ => ?_
  have rest (initial : Option Expression) (spelled : ∀ value ∈ initial, value.Spelled) :
      Yields Statement.Spelled (do
        terminator .endOfVariable
        return .let_ (.ofToken name) initial) :=
    .bind (.terminator _) fun _ _ => .pure ⟨genuine.name kind, spelled⟩
  exact .ite (.bind someExpression_yields rest) (.bind (.pure nofun) rest)

/-- Returns of genuine tokens are spelled. -/
theorem returnStatement_yields (line : Nat) : Yields Statement.Spelled (returnStatement line) := by
  have rest (result : Option Expression) (spelled : ∀ value ∈ result, value.Spelled) :
      Yields Statement.Spelled (do
        terminator .endOfReturn
        return .return_ line result) :=
    .bind (.terminator _) fun _ _ => .pure spelled
  exact .bind .peek fun found _ =>
    .ite (.bind (.pure nofun) rest) (.bind someExpression_yields rest)

/-- Conditionals are spelled when the statements inside them are. -/
theorem ifStatement_yields (yields : Yields Statement.Spelled inner) :
    Yields Statement.Spelled (ifStatement inner) := by
  refine .bind .expression fun condition holds => .bind (.expect _ _) fun _ _ =>
    .bind yields fun success first => .bind (.accept _) fun found _ => .ite ?_ ?_
  · exact .bind (.expect _ _) fun _ _ => .bind yields fun failure second =>
      .pure ⟨holds, first, second⟩
  · exact .pure ⟨holds, first, trivial⟩

/-- Loops are spelled when the statements inside them are. -/
theorem whileStatement_yields (yields : Yields Statement.Spelled inner) :
    Yields Statement.Spelled (whileStatement inner) :=
  .bind .expression fun _ holds => .bind (.expect _ _) fun _ _ =>
    .bind yields fun _ spelled => .pure ⟨holds, spelled⟩

/-- The initializer of a counting loop is spelled. -/
theorem forInitializer_yields :
    Yields (fun value => ∀ statement ∈ value, statement.Spelled) forInitializer := by
  have present {parser : Parser Statement} (yields : Yields Statement.Spelled parser) :
      Yields (fun value => ∀ statement ∈ value, statement.Spelled) (some <$> parser) :=
    .map yields fun _ spelled _ same => Option.some.inj same ▸ spelled
  exact .bind (.accept _) fun _ _ => .ite (.pure nofun) <| .bind (.accept _) fun _ _ =>
    .ite (present variableDeclaration_yields) (present expressionStatement_yields)

/-- The condition of a counting loop is spelled. -/
theorem forCondition_yields : Yields Expression.Spelled forCondition :=
  .bind .here fun _ _ => .ite (.pure trivial) .expression

/-- The increment of a counting loop is spelled. -/
theorem forIncrement_yields :
    Yields (fun value => ∀ tree ∈ value, tree.Spelled) forIncrement :=
  .bind .peek fun _ _ => .ite (.pure nofun) someExpression_yields

/-- A counting loop is spelled when its parts are. -/
theorem forLoop_spelled {initializer : Option Statement} {condition : Expression}
    {increment : Option Expression} {body : Statement}
    (first : ∀ statement ∈ initializer, statement.Spelled) (second : condition.Spelled)
    (third : ∀ tree ∈ increment, tree.Spelled) (last : body.Spelled) :
    (Statement.forLoop initializer condition increment body).Spelled := by
  cases initializer <;> cases increment <;>
    simp_all [Statement.forLoop, Statement.Spelled, Statement.SpelledAll]

/-- Counting loops are spelled when the statements inside them are. -/
theorem forStatement_yields (yields : Yields Statement.Spelled inner) :
    Yields Statement.Spelled (forStatement inner) := by
  refine .bind (.accept _) fun parenthesized _ =>
    .bind forInitializer_yields fun initializer first =>
    .bind forCondition_yields fun condition second => .bind (.expect _ _) fun _ _ =>
    .bind forIncrement_yields fun increment third => ?_
  have rest : Yields Statement.Spelled (do
      let _ ← expect (.keyword .then_) .thenAfterFor
      return .forLoop initializer condition increment (← inner)) :=
    .bind (.expect _ _) fun _ _ => .bind yields fun body last =>
      .pure (forLoop_spelled first second third last)
  exact .ite (.bind (.expect _ _) fun _ _ => rest) rest

/-- Parameters of genuine tokens are spelled. -/
theorem parameters_yields (budget : Nat) :
    Yields (fun names => ∀ name ∈ names, name.Spelled) (parameters budget) := by
  induction budget with
  | zero => exact .bind .peek fun _ _ => .blame _
  | succ budget inductionHypothesis =>
      refine .bind .here fun place genuine => .bind .skip fun _ _ => ?_
      split
      next kind =>
        have spelled := genuine.here.name kind
        refine .bind (.accept _) fun _ _ =>
          .ite (.bind inductionHypothesis fun names others => ?_) ?_
        · exact .pure (List.forall_mem_cons.2 ⟨spelled, others⟩)
        · exact .pure (List.forall_mem_singleton.2 spelled)
      next => exact .blameAt _ _

/-- Functions are spelled when their bodies are. -/
theorem function_yields {body : Parser (List Statement)} (yields : Yields Statement.SpelledAll body)
    (budget : Nat) : Yields Statement.Spelled (function body budget) := by
  refine .bind (.expect _ _) fun name ⟨genuine, kind⟩ => .bind (.expect _ _) fun _ _ =>
    .bind .peek fun found _ => ?_
  have rest (names : List Name) (spelled : ∀ name ∈ names, name.Spelled) :
      Yields Statement.Spelled (do
        let _ ← expect (.symbol .equal) .equalAfterParameters
        let _ ← accept .newline
        let _ ← expect .indent .functionBlock
        return .func (.ofToken name) names (← body)) :=
    .bind (.expect _ _) fun _ _ => .bind (.accept _) fun _ _ => .bind (.expect _ _) fun _ _ =>
      .bind yields fun _ others => .pure ⟨genuine.name kind, spelled, others⟩
  exact .ite (.bind (.pure nofun) rest) (.bind (parameters_yields budget) rest)

/-- A list of statements keeps only those that were read. -/
theorem statements_spelled (yields : Yields Statement.Spelled inner) (depth budget : Nat)
    {cursor : Cursor} (genuine : cursor.Genuine) :
    Statement.SpelledAll (statements inner depth budget cursor).1 ∧
      (statements inner depth budget cursor).2.Genuine := by
  induction budget generalizing cursor with
  | zero => exact ⟨trivial, genuine⟩
  | succ budget inductionHypothesis =>
      have marked : (cursor.mark depth).Genuine := genuine
      have spec := yields _ marked
      rw [statements]
      dsimp only
      split
      · exact ⟨trivial, marked⟩
      · obtain ⟨tree, after, run, tried⟩ | ⟨error, after, run, tried⟩ :=
          attempt_cases inner depth (cursor.mark depth)
        · obtain ⟨spelled, later⟩ := spec.ok run
          obtain ⟨others, last⟩ := inductionHypothesis later
          rw [tried]
          exact ⟨⟨spelled, others⟩, last⟩
        · have later : after.Genuine := spec.error run
          have noted : (after.note error).Genuine := later
          rw [tried]
          exact inductionHypothesis (noted.later (recover_advances _ depth))

/-- Blocks are spelled when the statements inside them are. -/
theorem block_yields (yields : Yields Statement.Spelled inner) (depth budget : Nat) :
    Yields Statement.SpelledAll (block inner depth budget) := by
  intro cursor genuine
  obtain ⟨spelled, later⟩ := statements_spelled yields depth budget genuine
  rw [ensures_block]
  exact ⟨fun _ => ⟨spelled, later.next⟩, fun _ => ⟨spelled, later⟩⟩

/-- Statements of genuine tokens are spelled, whatever the budget. -/
theorem statementWithin_yields (budget depth : Nat) :
    Yields Statement.Spelled (statementWithin budget depth) := by
  induction budget generalizing depth with
  | zero => exact .bind .peek fun _ _ => .blame _
  | succ budget inductionHypothesis =>
      have body := block_yields (inductionHypothesis (depth + 1)) (depth + 1) budget
      refine .bind .here fun place _ => ?_
      split
      next => exact .bind .skip fun _ _ => ifStatement_yields (inductionHypothesis depth)
      next => exact .bind .skip fun _ _ => whileStatement_yields (inductionHypothesis depth)
      next => exact .bind .skip fun _ _ => forStatement_yields (inductionHypothesis depth)
      next => exact .bind .skip fun _ _ => function_yields body budget
      next => exact .bind .skip fun _ _ => variableDeclaration_yields
      next => exact .bind .skip fun _ _ => returnStatement_yields _
      next => exact .bind .skip fun _ _ => .bind body fun _ spelled => .pure spelled
      next => exact expressionStatement_yields

end Statements

end Parser

/-- Every statement of a text is spelled as lexemes are, whatever mistakes stand around it. -/
theorem program_spelled {source : String} {statement : Statement}
    (member : statement ∈ (Program.ofTokens (scan source).tokens).statements) :
    statement.Spelled := by
  have genuine : (Cursor.ofTokens (scan source).tokens).Genuine := by
    intro token present
    exact genuine_of_scan ((Cursor.script_initial _).subset present)
  exact Statement.spelledAll_iff.1 (Parser.statements_spelled
    (Parser.statementWithin_yields _ 0) 0 _ genuine).1 statement member

end Offside
