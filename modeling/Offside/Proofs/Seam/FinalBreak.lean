/-
This file proves that a text means the same with and without a line break at its end, unless it has
lexical errors.
-/

import Offside.Proofs.Parallel.Statement
import Offside.Proofs.Seam.Joint

namespace Offside

namespace Margin

/-- Nothing stands on the line that a last line break starts. -/
theorem measure_concat (margin : Margin) (ahead : List Piece) :
    margin.measure (ahead ++ [.lineBreak]) = margin.measure ahead := by
  by_cases none : content ahead = []
  · have spaces := List.dropWhile_eq_nil_iff.1 none
    have rest : content (ahead ++ [.lineBreak]) = [.lineBreak] :=
      List.dropWhile_append_of_pos spaces
    rw [measure_idle (by rw [rest]; rfl), measure_idle (by rw [none]; rfl)]
  · exact measure_append _ none

/-- A last line break changes nothing in how the lines before it are measured. -/
theorem settled_lineBreak (before : List Piece) : Settled before [.lineBreak] where
  head margin := margin.measure_concat before
  breaks _ back _ margin := margin.measure_concat back

/-- The end of a statement comes from the line break or from the end of the text, and the open
blocks are closed one line later. -/
theorem finish_broken (margin : Margin) :
    ∃ breaks line, (breaks = [] ∨ breaks = [Kind.newline]) ∧
      margin.finish = breaks.map (Token.layout · margin.line) ++ margin.closing ∧
      margin.lineBreak ++ margin.broken.finish =
        breaks.map (Token.layout · line) ++ margin.broken.closing := by
  rw [finish_eq, finish_eq]
  cases last : margin.last with
  | none =>
      refine ⟨[], margin.line, .inl rfl, ?_⟩
      simp [lastBreak, lineBreak, broken, after, last]
  | some kind =>
      cases ends : kind.endsLine with
      | true =>
          refine ⟨[], margin.line, .inl rfl, ?_⟩
          simp [lastBreak, lineBreak, broken, after, last, ends]
      | false =>
          cases continues : kind.continuesLine with
          | true =>
              -- The line break gives no token here, and the next line is the last one.
              refine ⟨[.newline], margin.line + 1, .inr rfl, ?_⟩
              simp [lastBreak, lineBreak, broken, after, last, ends, continues]
          | false =>
              have newline : Kind.newline.endsLine = true := rfl
              refine ⟨[.newline], margin.line, .inr rfl, ?_⟩
              simp [lastBreak, lineBreak, broken, after, last, ends, continues, newline,
                Token.layout]

end Margin

/-- A line break at the end of such a text is a piece of its own. -/
theorem Piece.parts_of_scan {source : String} (clean : (scan source).errors = []) :
    Parts '\n' (split source.toList) where
  sort := .inr (.inr rfl)
  closed body member := by cases flawless_of_scan clean _ member
  comment _ _ := rfl
  tilde _ member := by cases flawless_of_scan clean _ member

/-- The line break is laid out after the whole text. -/
theorem scan_append_lineBreak {source : String} (clean : (scan source).errors = []) :
    scan (source ++ "\n") = scanBefore source ++
      .ofTokens ((Margin.atEnd (Piece.split source.toList)).lineBreak ++
        (Margin.atEnd (Piece.split source.toList)).broken.finish) := by
  have whole : (source ++ "\n").toList = source.toList ++ ['\n'] := by simp
  have one : Piece.split ['\n'] = [.lineBreak] := by
    rw [Piece.split_cons, Piece.cut, if_pos rfl, Piece.split]
  rw [scan, whole, Piece.split_before (Piece.parts_of_scan clean), one,
    scanPieces_settled (Margin.settled_lineBreak _), Margin.arrange_lineBreak]
  rfl

section Parse

open Cursor

/-- Tokens that match make scripts that match. -/
theorem script_matches {tokens others : List Token}
    (pairs : List.Forall₂ Token.Matches tokens others) :
    List.Forall₂ Token.Matches (script tokens) (script others) := by
  induction pairs with
  | nil => exact .nil
  | @cons token other tokens others pair _ inductionHypothesis =>
      unfold script at *
      by_cases ends : token.kind = .eof
      · simp [isEnd, pair.kind, ends]
      · simpa [isEnd, pair.kind, ends] using ⟨pair, inductionHypothesis⟩

/-- Tokens that differ only in the lines of the layout give the same statements, on the same lines,
and the same mistakes at the same places. -/
theorem program_matches (source : String) {others : List Token}
    (pairs : List.Forall₂ Token.Matches (scan source).tokens others) :
    (Program.ofTokens others).statements = (Program.ofTokens (scan source).tokens).statements ∧
      (Program.ofTokens others).errors.map SyntaxError.site =
        (Program.ofTokens (scan source).tokens).errors.map SyntaxError.site := by
  have scripts := script_matches pairs
  have matches_ : (ofTokens (scan source).tokens).Matches [] (ofTokens others) :=
    ⟨⟨script others, (List.append_nil _).symm, scripts⟩, rfl, rfl⟩
  have seated : Seated (script (scan source).tokens) 0 (script (scan source).tokens).length
      (.ofTokens (scan source).tokens) := ⟨scan_sits source, Nat.le_refl _⟩
  have twofold : Parser.Twofold [] (script (scan source).tokens) 0 _ _ :=
    Parser.statementWithin_twofold (by decide) (script (scan source).tokens).length 0
  obtain ⟨same, last⟩ := Parser.statements_parallel twofold (script (scan source).tokens).length
    seated (Nat.le_refl _) matches_ fun _ => rfl
  rw [Parser.program_eq_statements others (Nat.le_of_eq scripts.length_eq.symm)] at same last
  exact ⟨same, last.errors⟩

end Parse

namespace Token

/-- Layout tokens of the same kinds match on any lines. -/
theorem matches_layout {kinds : List Kind} (layout : ∀ kind ∈ kinds, kind.isLayout = true)
    (first second : Nat) :
    List.Forall₂ Token.Matches (kinds.map (Token.layout · first))
      (kinds.map (Token.layout · second)) := by
  rw [List.forall₂_map_left_iff, List.forall₂_map_right_iff, List.forall₂_same]
  intro kind member
  refine ⟨rfl, rfl, rfl, fun written => ?_⟩
  have same : kind.isLayout = false := written
  rw [layout kind member] at same
  cases same

/-- Tokens that match spell the same. -/
theorem spellings_of_matches {tokens others : List Token}
    (pairs : List.Forall₂ Token.Matches tokens others) :
    others.map Token.spelling = tokens.map Token.spelling := by
  induction pairs with
  | nil => rfl
  | cons pair _ inductionHypothesis =>
      rw [List.map_cons, List.map_cons, inductionHypothesis, Token.spelling, pair.kind,
        pair.lexeme, pair.literal]
      rfl

end Token

/-- A line break at the end of a text without lexical errors adds no error and no token. The blocks
that are still open are closed one line later, and the end of the last statement may stand on
another line too. All other tokens stay as they are. So the same statements are read from the same
lines, and the same mistakes are found at the same places. -/
theorem scan_finalBreak {source : String} (clean : (scan source).errors = []) :
    let alone := scan source
    let broken := scan (source ++ "\n")
    let last := 1 + source.toList.count '\n'
    let closing := List.replicate (openBlocks source) Kind.dedent ++ [.eof]
    broken.errors = [] ∧ broken.tokens.map Token.spelling = alone.tokens.map Token.spelling ∧
      (∃ body breaks line, (breaks = [] ∨ breaks = [Kind.newline]) ∧
        alone.tokens =
          body ++ (breaks.map (Token.layout · last) ++ closing.map (Token.layout · last)) ∧
        broken.tokens =
          body ++ (breaks.map (Token.layout · line) ++ closing.map (Token.layout · (last + 1)))) ∧
      (Program.ofTokens broken.tokens).statements = (Program.ofTokens alone.tokens).statements ∧
      (Program.ofTokens broken.tokens).errors.map SyntaxError.site =
        (Program.ofTokens alone.tokens).errors.map SyntaxError.site := by
  intro alone broken last closing
  let margin := Margin.atEnd (Piece.split source.toList)
  have end_ : margin.line = last := atEnd_line source
  have closes (line : Nat) : ({ margin with line } : Margin).closing =
      closing.map (Token.layout · line) := by
    simp [Margin.closing, closing, margin, openBlocks]
  obtain ⟨breaks, line, newline, finish, again⟩ := margin.finish_broken
  have one : alone.tokens = gathered (Piece.split source.toList) ++
      (breaks.map (Token.layout · last) ++ closing.map (Token.layout · last)) := by
    rw [← end_, ← closes, ← finish]
    exact scanPieces_tokens _
  have two : broken.tokens = gathered (Piece.split source.toList) ++
      (breaks.map (Token.layout · line) ++ closing.map (Token.layout · (last + 1))) := by
    rw [← end_, ← closes]
    change (scan (source ++ "\n")).tokens = _
    rw [scan_append_lineBreak clean]
    exact congrArg (gathered (Piece.split source.toList) ++ ·) again
  have errors : broken.errors = [] := by
    change (scan (source ++ "\n")).errors = []
    rw [scan_append_lineBreak clean, Scan.append_errors, List.append_eq_nil_iff]
    exact ⟨clean, rfl⟩
  have pairs : List.Forall₂ Token.Matches alone.tokens broken.tokens := by
    rw [one, two]
    refine List.rel_append (List.forall₂_same.2 fun token _ => .refl token) (List.rel_append ?_ ?_)
    · apply Token.matches_layout
      obtain rfl | rfl := newline <;> decide
    · apply Token.matches_layout
      intro kind member
      obtain dedent | eof := List.mem_append.1 member
      · rw [List.eq_of_mem_replicate dedent]
        rfl
      · rw [List.mem_singleton.1 eof]
        rfl
  exact ⟨errors, Token.spellings_of_matches pairs, ⟨_, breaks, line, newline, one, two⟩,
    program_matches source pairs⟩

/-- This text ends with a keyword that keeps its line open, inside a block and before a comment. -/
theorem scan_finalBreak_open_line :
    let source := "if a then\n    let b; c and // d"
    (scan source).errors = [] ∧
      (scan "if a then\n    let b; c and // d\n").errors = [] ∧
      (Program.ofTokens (scan "if a then\n    let b; c and // d\n").tokens).statements =
        [.if_ (.reference ⟨"a", 1⟩) (.block [.let_ ⟨"b", 2⟩ none]) none] ∧
      (Program.ofTokens (scan "if a then\n    let b; c and // d\n").tokens).errors.map
        SyntaxError.site = [(.noExpression .newline, 9)] := by
  intro source
  have pieces : Piece.split source.toList =
      [.lexeme (.keyword .if_) ['i', 'f'], .blank ' ', .lexeme .name ['a'], .blank ' ',
        .lexeme (.keyword .then_) ['t', 'h', 'e', 'n'], .lineBreak, .blank ' ', .blank ' ',
        .blank ' ', .blank ' ', .lexeme (.keyword .let_) ['l', 'e', 't'], .blank ' ',
        .lexeme .name ['b'], .lexeme (.symbol .semicolon) [';'], .blank ' ', .lexeme .name ['c'],
        .blank ' ', .lexeme (.keyword .and) ['a', 'n', 'd'], .blank ' ',
        .comment [' ', 'd']] := by
    change Piece.split "if a then\n    let b; c and // d".toList = _
    rw [Piece.split_eq_splitWithin (Nat.le_refl 31)]
    rfl
  have clean : (scan source).errors = [] := by
    unfold scan
    rw [pieces]
    rfl
  have statements : (Program.ofTokens (scan source).tokens).statements =
      [.if_ (.reference ⟨"a", 1⟩) (.block [.let_ ⟨"b", 2⟩ none]) none] := by
    unfold scan
    rw [pieces]
    rfl
  have sites : (Program.ofTokens (scan source).tokens).errors.map SyntaxError.site =
      [(.noExpression .newline, 9)] := by
    unfold scan
    rw [pieces]
    rfl
  obtain ⟨errors, -, -, trees, places⟩ := scan_finalBreak clean
  exact ⟨clean, errors, trees.trans statements, places.trans sites⟩

end Offside
