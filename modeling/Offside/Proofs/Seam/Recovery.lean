/-
This file proves that the mistakes of one text cost nothing of the text after it, if each of them is
found before the first text ends.
-/

import Offside.Proofs.Indent.Depth
import Offside.Proofs.Parallel.Statement
import Offside.Proofs.Seam.Reading

namespace Offside

open Cursor Grammar

/-- This is the last token that does not come from the layout. -/
def Token.lastWritten? (tokens : List Token) : Option Token :=
  (tokens.filter fun token => !token.kind.isLayout).getLast?

namespace Parser

variable {later body : List Token} {limit : Nat} {first second : Cursor} {item : Parser Statement}

/-- A list of statements without tokens is empty. -/
theorem statements_of_empty (item : Parser Statement) (depth budget : Nat) {cursor : Cursor}
    (empty : cursor.rest = []) :
    statements item depth budget cursor = ([], cursor.mark depth) := by
  have ends : (cursor.mark depth).closes depth = true := closes_iff.2 (.inl (kind_of_empty empty))
  cases budget with
  | zero => rfl
  | succ budget => rw [statements, if_pos ends]

/-- The statements of two lists of tokens are those of the first list and then those that are read
from the second one, if no mistake is found at the end of the first. -/
theorem statements_joined (twofold : Twofold later body 0 limit item) (budget : Nat)
    (seated : Seated body 0 limit first) (lined : first.Lined)
    (total : first.position + first.rest.length = body.length)
    (enough : first.rest.length + later.length ≤ budget) (matches_ : first.Matches later second)
    (early : ∀ error ∈ (statements item 0 budget first).2.errors, ¬error.StandsAt body.length) :
    ∃ middle rounds, middle.rest = later ∧ later.length ≤ rounds ∧
      middle.errors.map SyntaxError.site =
        (statements item 0 budget first).2.errors.map SyntaxError.site ∧
      statements item 0 budget second =
        ((statements item 0 budget first).1 ++ (statements item 0 rounds middle).1,
          (statements item 0 rounds middle).2) := by
  induction budget generalizing first second with
  | zero =>
      have empty : first.rest = [] := List.eq_nil_of_length_eq_zero (by omega)
      have none : later = [] := List.eq_nil_of_length_eq_zero (by omega)
      obtain ⟨tokens, rest, pairs⟩ := matches_.rest
      rw [empty] at pairs
      cases pairs
      exact ⟨second, 0, rest, by simp [none], matches_.errors, rfl⟩
  | succ budget inductionHypothesis =>
      by_cases empty : first.rest = []
      · obtain ⟨tokens, rest, pairs⟩ := matches_.rest
        rw [empty] at pairs
        cases pairs
        rw [statements_of_empty item 0 _ empty]
        exact ⟨second, budget + 1, rest, by omega, matches_.errors, rfl⟩
      have ends : (first.mark 0).closes 0 = false := by
        rw [Bool.eq_false_iff]
        intro closed
        obtain ends | ⟨impossible, -⟩ := closes_iff.1 closed
        · exact empty (seated.within.rest_eq_nil ends)
        · exact impossible rfl
      have marked : Seated body 0 limit (first.mark 0) := ⟨seated.toSits.mark, seated.room⟩
      have agrees := (matches_.mark 0).agrees (.of_rest empty)
      have tried := Seated.attempt twofold.sound marked
      obtain ⟨moved, shorter⟩ := attempt_forward twofold.sound seated.limited ends
      have others := (statements_ensures twofold.sound budget tried.limited (by omega)).1
      rw [statements] at early
      simp only [ends, Bool.false_eq_true, if_false] at early
      -- A statement that fails at the end would blame a place that no mistake is found at.
      have failed : ∀ error after, item (first.mark 0) = .error error after →
          after.Open later ∧ (((after.note error).recover 0).Open later ∨
            after.Lined ∧ Balanced 0 after.rest) := by
        intro error after run
        have parallel := twofold.parallel (first.mark 0) second marked
        obtain ⟨onward, stands⟩ := parallel.onward.error run
        have stumbled := (twofold.sound _ marked.limited).error run
        have more : after.rest ≠ [] := by
          intro nothing
          have sum : after.position + after.rest.length = first.position + first.rest.length :=
            stumbled.1.advances.total
          have last : after.position = body.length := by
            rw [nothing, total] at sum
            exact sum
          have noted : error ∈ (attempt item 0 (first.mark 0)).2.errors := by
            rw [attempt, run]
            simp [recover_errors, note]
          apply early error (others.advances.errors.subset noted)
          rw [← last]
          exact stands lined nothing
        exact ⟨.of_rest more, .inr ⟨lined.of_suffix onward, (marked.goes stumbled.1).balanced⟩⟩
      obtain ⟨tree, matched⟩ := attempt_parallel twofold marked (matches_.mark 0) failed
      obtain ⟨middle, rounds, rest, room, errors, whole⟩ := inductionHypothesis tried
        (lined.of_suffix (suffix_of_advances moved)) (moved.total.trans total) (by omega) matched
        early
      refine ⟨middle, rounds, rest, room, ?_, ?_⟩
      · rw [statements]
        simp only [ends, Bool.false_eq_true, if_false]
        exact errors
      · rw [statements, statements]
        simp only [agrees.closes, ends, Bool.false_eq_true, if_false, tree, whole,
          List.append_assoc]

end Parser

/-- A text that ends with a line break has ended its last line, unless its last token continues
it. -/
theorem ended_of_lastWritten {pieces : List Piece} (written : ∀ piece ∈ pieces, piece.IsWritten)
    (ends : ∀ last ∈ pieces.getLast?, last = Piece.lineBreak)
    (finished : ∀ token ∈ Token.lastWritten? (scanPieces pieces).tokens,
      token.kind.continuesLine = false) : (Margin.atEnd pieces).Ended := by
  obtain ⟨-, ended⟩ | ⟨kind, last, unended, -⟩ := (Margin.atEnd pieces).lastBreak_cases
  · exact ended
  have reached := reaches_gathered pieces written
  have continues : kind.continuesLine = true := by
    have starts := startsLine_atEnd ends kind last
    rw [unended] at starts
    simpa using starts
  obtain ⟨front, token, tokens, same⟩ := exists_last_of_lastKind (reached.last.symm.trans last)
  have word : token.kind.isLayout = false := by
    cases kind <;> simp_all [Kind.continuesLine, Kind.isLayout]
  have layout : (Margin.atEnd pieces).finish.filter (fun token => !token.kind.isLayout) = [] := by
    rw [List.filter_eq_nil_iff]
    intro other member
    simp [((Margin.atEnd pieces).finish_places.1 other member).1]
  have final : Token.lastWritten? (scanPieces pieces).tokens = some token := by
    rw [Token.lastWritten?, scanPieces_tokens, List.filter_append, layout, tokens]
    simp [word]
  have goesOn := finished token final
  rw [same, continues] at goesOn
  cases goesOn

/-- The script of a text ends its last line. -/
theorem scan_lined (source : String) : (ofTokens (scan source).tokens).Lined := by
  obtain ⟨body, line, tokens, goesOn, lined⟩ := scan_closing source
  have dedents := dedents_goOn (openBlocks source) line
  have whole : script (scan source).tokens =
      body ++ List.replicate (openBlocks source) (.layout .dedent line) := by
    rw [tokens, List.append_assoc, script_append goesOn, script_append dedents]
    exact congrArg (body ++ ·) (List.append_nil _)
  intro last present
  rw [ofTokens_rest, whole, List.getLast?_append] at present
  cases count : openBlocks source with
  | zero =>
      rw [count] at present
      exact lined last.kind (lastKind_eq_some.2 ⟨last, present, rfl⟩)
  | succ blocks =>
      rw [count, List.getLast?_replicate] at present
      cases present
      rfl

/-- Later tokens that derive statements add these to the program of a text. -/
theorem program_joined (source : String) {joined later : List Token} {others : List Statement}
    (matches_ : (ofTokens (scan source).tokens).Matches later (ofTokens joined))
    (derivation : Sequence later others [])
    (early : ∀ error ∈ (Program.ofTokens (scan source).tokens).errors,
      ¬error.StandsAt (script (scan source).tokens).length) :
    (Program.ofTokens joined).statements =
        (Program.ofTokens (scan source).tokens).statements ++ others ∧
      (Program.ofTokens joined).errors.map SyntaxError.site =
        (Program.ofTokens (scan source).tokens).errors.map SyntaxError.site := by
  have length : (script joined).length = (script (scan source).tokens).length + later.length :=
    matches_.length
  -- Both runs get the budget of the longer one.
  generalize enough : (script joined).length = budget at length
  have alone : Parser.statements (Parser.statementWithin budget 0) 0 budget _ = _ :=
    Parser.program_eq_statements (scan source).tokens (by omega)
  have seated : Seated (script (scan source).tokens) 0 budget (.ofTokens (scan source).tokens) :=
    ⟨scan_sits source, by rw [ofTokens_rest]; omega⟩
  have twofold : Parser.Twofold later (script (scan source).tokens) 0 budget _ :=
    Parser.statementWithin_twofold derivation.head_ne_else budget 0
  obtain ⟨middle, rounds, rest, room, errors, whole⟩ := Parser.statements_joined twofold budget
    seated (scan_lined source) (Nat.zero_add _) (by rw [ofTokens_rest]; omega) matches_
    (by rw [alone]; exact early)
  rw [alone] at errors whole
  rw [Parser.program_eq_statements joined (Nat.le_of_eq enough)] at whole
  rw [← rest] at derivation room
  have accepted : Parser.Succeeds middle others []
      (Parser.statements (Parser.statementWithin budget 0) 0 rounds middle).1
      (Parser.statements (Parser.statementWithin budget 0) 0 rounds middle).2 :=
    Parser.statements_accept (Parser.statementWithin_accepts budget 0) derivation room
      (by rw [rest]; omega) (.inl rfl)
  obtain ⟨same, -, none⟩ := accepted
  unfold Program.ofTokens
  rw [whole]
  exact ⟨congrArg (_ ++ ·) same, (congrArg _ none).trans errors⟩

/-- Tokens that are retold on the same lines match. -/
theorem Token.Matches.of_retold {first second : Token} (retold : Retold id first second) :
    first.Matches second where
  kind := retold.kind
  lexeme := retold.lexeme
  literal := retold.literal
  line written := by
    apply retold.line
    intro dedent
    rw [dedent] at written
    cases written

/-- The mistakes of a text cost nothing of a text after it, if each of them is found before the
first text ends. All statements of both texts are read, and the mistakes stay where they are. -/
theorem program_append {first second : String} {others : List Statement}
    (clean : (scan first).errors = []) (ends : Piece.EndsScript first.toList)
    (finished : ∀ token ∈ Token.lastWritten? (scan first).tokens,
      token.kind.continuesLine = false)
    (early : ∀ error ∈ (Program.ofTokens (scan first).tokens).errors,
      ¬error.StandsAt (script (scan first).tokens).length)
    (read : readScript second = .ok others) (paired : Piece.Paired second.toList)
    (flush : headKind (scan second).tokens ≠ .indent) :
    (scan (first ++ second)).errors = [] ∧
      (Program.ofTokens (scan (first ++ second)).tokens).statements =
        (Program.ofTokens (scan first).tokens).statements ++
          others.map (Statement.reline (· + first.toList.count '\n')) ∧
      (Program.ofTokens (scan (first ++ second)).tokens).errors.map SyntaxError.site =
        (Program.ofTokens (scan first).tokens).errors.map SyntaxError.site := by
  have written := Piece.split_written first.toList
  have last := Piece.getLast?_split ends (closed_of_scan clean)
  have ended := ended_of_lastWritten written last finished
  obtain ⟨lexical, derivation⟩ := sequence_of_readScript read
  obtain ⟨errors, line, tokens⟩ := scan_joined clean ends ended lexical paired flush
  have start : script (scan first).tokens = _ := script_closing written ended
  have matches_ : (ofTokens (scan first).tokens).Matches
      ((script (scan second).tokens).map (Token.shift (first.toList.count '\n')))
      (ofTokens (scan (first ++ second)).tokens) := by
    refine ⟨⟨_, tokens, ?_⟩, rfl, rfl⟩
    rw [ofTokens_rest, start]
    exact (retold_dedents _ _ line).imp fun _ _ => Token.Matches.of_retold
  have tail := sequence_later (first.toList.count '\n') derivation
  exact ⟨errors, program_joined first matches_ tail early⟩

/-- A mistake inside a block leaves the rest of the block and the text after it as they are. -/
theorem program_append_open_block :
    let first := "if a then\n    let = 1\n    b\n"
    let second := "c\n"
    let reference (name : String) (line : Nat) : Statement :=
      .expression (.reference ⟨name, line⟩)
    let whole := Program.ofTokens (scan (first ++ second)).tokens
    (Program.ofTokens (scan first).tokens).errors =
        [⟨.missing .variableName (.symbol .equal), 2, 5⟩] ∧
      readScript second = .ok [reference "c" 1] ∧
      whole.statements =
        [.if_ (.reference ⟨"a", 1⟩) (.block [reference "b" 3]) none, reference "c" 4] ∧
      whole.errors.map SyntaxError.site = [(.missing .variableName (.symbol .equal), 5)] := by
  intro first second reference whole
  have pieces : Piece.split first.toList =
      [.lexeme (.keyword .if_) ['i', 'f'], .blank ' ', .lexeme .name ['a'], .blank ' ',
        .lexeme (.keyword .then_) ['t', 'h', 'e', 'n'], .lineBreak,
        .blank ' ', .blank ' ', .blank ' ', .blank ' ', .lexeme (.keyword .let_) ['l', 'e', 't'],
        .blank ' ', .lexeme (.symbol .equal) ['='], .blank ' ', .lexeme .number ['1'], .lineBreak,
        .blank ' ', .blank ' ', .blank ' ', .blank ' ', .lexeme .name ['b'], .lineBreak] := by
    change Piece.split "if a then\n    let = 1\n    b\n".toList = _
    rw [Piece.split_eq_splitWithin (Nat.le_refl 28)]
    rfl
  have others : Piece.split second.toList = [.lexeme .name ['c'], .lineBreak] := by
    change Piece.split "c\n".toList = _
    rw [Piece.split_eq_splitWithin (Nat.le_refl 2)]
    rfl
  have statements : (Program.ofTokens (scan first).tokens).statements =
      [.if_ (.reference ⟨"a", 1⟩) (.block [reference "b" 3]) none] := by
    unfold scan
    rw [pieces]
    rfl
  have errors : (Program.ofTokens (scan first).tokens).errors =
      [⟨.missing .variableName (.symbol .equal), 2, 5⟩] := by
    unfold scan
    rw [pieces]
    rfl
  have length : (script (scan first).tokens).length = 11 := by
    unfold scan
    rw [pieces]
    rfl
  have finished : Token.lastWritten? (scan first).tokens =
      some ⟨.name, "b", some (.string "b"), 3⟩ := by
    unfold scan
    rw [pieces]
    rfl
  have clean : (scan first).errors = [] := by
    unfold scan
    rw [pieces]
    rfl
  have read : readScript second = .ok [reference "c" 1] := by
    unfold readScript scan
    rw [others]
    rfl
  have ends : Piece.EndsScript first.toList := Piece.endsScript_of_split (by rw [pieces]; rfl)
  have paired : Piece.Paired second.toList := by
    simp [second, Piece.paired_cons, Piece.paired_nil]
  have flush : headKind (scan second).tokens ≠ .indent := by
    unfold scan
    rw [others]
    decide
  have early : ∀ error ∈ (Program.ofTokens (scan first).tokens).errors,
      ¬error.StandsAt (script (scan first).tokens).length := by
    rw [errors, length]
    simp [SyntaxError.StandsAt]
  have lines : first.toList.count '\n' = 3 := by decide
  obtain ⟨-, trees, sites⟩ := program_append clean ends (by simp [finished, Kind.continuesLine])
    early read paired flush
  rw [statements, lines] at trees
  rw [errors] at sites
  exact ⟨errors, read, trees, sites⟩

/-- A mistake at the end of a text takes up the text after it: the header of a function that is
never finished costs the start of the next statement, whose rest is then a mistake of its own. -/
theorem program_append_unfinished_header :
    let first := "func f:\n"
    let second := "if a then let b\nelse then c\n"
    let tree : Statement := .if_ (.reference ⟨"a", 1⟩) (.let_ ⟨"b", 1⟩ none)
      (some (.expression (.reference ⟨"c", 2⟩)))
    let whole := Program.ofTokens (scan (first ++ second)).tokens
    (scan first).errors = [] ∧ Piece.EndsScript first.toList ∧
      (∀ token ∈ Token.lastWritten? (scan first).tokens, token.kind.continuesLine = false) ∧
      readScript second = .ok [tree] ∧ headKind (scan second).tokens ≠ .indent ∧
      Piece.Paired first.toList ∧ Piece.Paired second.toList ∧
      (Program.ofTokens (scan first).tokens).errors = [⟨.parameter .newline, 1, 3⟩] ∧
      whole.errors = [⟨.parameter .newline, 1, 3⟩, ⟨.noExpression (.keyword .else_), 3, 10⟩] ∧
      whole.statements = [.let_ ⟨"b", 2⟩ none] := by
  intro first second tree whole
  have pieces : Piece.split first.toList = [.lexeme (.keyword .func) ['f', 'u', 'n', 'c'],
      .blank ' ', .lexeme .name ['f'], .lexeme (.symbol .colon) [':'], .lineBreak] := by
    change Piece.split "func f:\n".toList = _
    rw [Piece.split_eq_splitWithin (Nat.le_refl 8)]
    rfl
  have others : Piece.split second.toList = [.lexeme (.keyword .if_) ['i', 'f'], .blank ' ',
      .lexeme .name ['a'], .blank ' ', .lexeme (.keyword .then_) ['t', 'h', 'e', 'n'], .blank ' ',
      .lexeme (.keyword .let_) ['l', 'e', 't'], .blank ' ', .lexeme .name ['b'], .lineBreak,
      .lexeme (.keyword .else_) ['e', 'l', 's', 'e'], .blank ' ',
      .lexeme (.keyword .then_) ['t', 'h', 'e', 'n'], .blank ' ', .lexeme .name ['c'],
      .lineBreak] := by
    change Piece.split "if a then let b\nelse then c\n".toList = _
    rw [Piece.split_eq_splitWithin (Nat.le_refl 28)]
    rfl
  have ends : Piece.EndsScript first.toList := Piece.endsScript_of_split (by rw [pieces]; rfl)
  have clean : (scan first).errors = [] := by
    unfold scan
    rw [pieces]
    rfl
  have joined : Piece.split (first ++ second).toList =
      Piece.split first.toList ++ Piece.split second.toList := by
    rw [String.toList_append, Piece.split_append ends.line (closed_of_scan clean)]
  refine ⟨clean, ends, ?_, ?_, ?_, ?_, ?_, ?_, ?_, ?_⟩
  · have finished : Token.lastWritten? (scan first).tokens =
        some ⟨.symbol .colon, ":", none, 1⟩ := by
      unfold scan
      rw [pieces]
      rfl
    simp [finished, Kind.continuesLine]
  · unfold readScript scan
    rw [others]
    rfl
  · unfold scan
    rw [others]
    decide
  · simp [first, Piece.paired_cons, Piece.paired_nil]
  · simp [second, Piece.paired_cons, Piece.paired_nil]
  · unfold scan
    rw [pieces]
    rfl
  · change (Program.ofTokens (scan (first ++ second)).tokens).errors = _
    unfold scan
    rw [joined, pieces, others]
    rfl
  · change (Program.ofTokens (scan (first ++ second)).tokens).statements = _
    unfold scan
    rw [joined, pieces, others]
    rfl

end Offside
