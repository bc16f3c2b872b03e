/-
This file proves that the block marks of a scan follow the indentation of the lines exactly. At
every token the blocks that are open are those of the last line that set a depth.
-/

import Offside.Proofs.Indent.Lines

namespace Offside

/-- Tokens on the line of a block mark stand after it, and so do those on later lines. -/
def Token.InOrder (first second : Token) : Prop :=
  (second.kind.isBlockMark = true → first.kind.isLayout = false → first.line < second.line) ∧
    (first.kind.isBlockMark = true → second.kind.isLayout = false → first.line ≤ second.line)

theorem Kind.isLayout_of_isBlockMark {kind : Kind} (mark : kind.isBlockMark = true) :
    kind.isLayout = true := by
  cases kind <;> simp_all [isBlockMark, isLayout]

theorem Kind.isBlockMark_of_written {kind : Kind} (written : kind.isLayout = false) :
    kind.isBlockMark = false := by
  cases kind <;> simp_all [isBlockMark, isLayout]

/-- An element of two joined lists is in the first one or in the second one. -/
theorem append_cons_cases {α : Type} {first second front back : List α} {x : α}
    (whole : first ++ second = front ++ x :: back) :
    (∃ others, first = front ++ x :: others) ∨
      ∃ others, front = first ++ others ∧ second = others ++ x :: back := by
  obtain ⟨others, rfl, rest⟩ | ⟨others, rfl, rest⟩ := List.append_eq_append_iff.1 whole
  · exact Or.inr ⟨others, rfl, rest⟩
  · cases others with
    | nil => exact Or.inr ⟨[], by simp, by simpa using rest.symm⟩
    | cons y others =>
        obtain ⟨rfl, -⟩ := List.cons.inj rest
        exact Or.inl ⟨others, rfl⟩

namespace Margin

open Piece

/-- The scan gives these lines their depths, and it ends at the next margin. -/
structure Measures (margin : Margin) (lines : List Line) (scan : Scan) (next : Margin) : Prop where
  depth : next.depth = Line.depthAfter margin.depth lines
  marks : scan.tokens.filter (·.kind.isBlockMark) = Line.marks margin.depth lines
  errors : scan.errors.filter (·.flaw == .misalignedIndent) = Line.misalignments lines

/-- Groups of lines in a row get their depths one after the other. -/
theorem Measures.trans {first second third : Margin} {lines others : List Line} {start rest : Scan}
    (front : first.Measures lines start second) (back : second.Measures others rest third) :
    first.Measures (lines ++ others) (start ++ rest) third where
  depth := by rw [back.depth, front.depth, Line.depthAfter_append]
  marks := by
    rw [Scan.append_tokens, List.filter_append, front.marks, back.marks, front.depth,
      Line.marks_append]
  errors := by
    rw [Scan.append_errors, List.filter_append, front.errors, back.errors,
      Line.misalignments_append]

section Advance

variable {margin : Margin} {c : Char} {rest : List Char}

/-- A piece moves the margin on by the line breaks in its text. -/
theorem advance_line (margin : Margin) (piece : Piece) (ahead : List Piece) :
    (margin.advance piece ahead).2.line = margin.lineAfter piece.text := by
  cases piece with
  | lineBreak => exact measure_line _ _
  | blank | comment | joint | lexeme | stray | unclosed => rfl

/-- A line break yields only line break tokens. -/
theorem lineBreak_kinds (margin : Margin) : ∀ token ∈ margin.lineBreak, token.kind = .newline := by
  unfold lineBreak
  split
  · simp
  split <;> simp [Token.layout]

/-- The token of a line break stands on the line that it ends. -/
theorem lineBreak_lines (margin : Margin) : ∀ token ∈ margin.lineBreak, token.line = margin.line := by
  unfold lineBreak
  split
  · simp
  split <;> simp [Token.layout]

/-- The marks of lines are block marks. -/
theorem marks_isBlockMark (depth : Nat) (lines : List Line) :
    ∀ token ∈ Line.marks depth lines, token.kind.isBlockMark = true := by
  induction lines generalizing depth with
  | nil => simp [Line.marks]
  | cons line rest inductionHypothesis =>
      intro token member
      rw [Line.marks, ← steps_eq] at member
      obtain member | member := List.mem_append.1 member
      · exact steps_isBlockMark _ _ _ token member
      · exact inductionHypothesis _ token member

/-- A line break starts one free line, and that line is measured. -/
theorem measures_lineBreak (margin : Margin) (text : List Char) :
    margin.Measures [⟨margin.line + 1, true, text⟩] (margin.advance .lineBreak (split text)).1
      (margin.advance .lineBreak (split text)).2 := by
  obtain ⟨measured, depth⟩ := measure_split margin.broken text
  have tokens : (margin.advance .lineBreak (split text)).1 =
      .ofTokens margin.lineBreak ++ (margin.broken.measure (split text)).1 := rfl
  have noMarks : margin.lineBreak.filter (·.kind.isBlockMark) = [] := by
    rw [List.filter_eq_nil_iff]
    intro token member
    rw [lineBreak_kinds margin token member]
    decide
  refine ⟨depth, ?_, ?_⟩
  · have all := List.filter_eq_self.2 (marks_isBlockMark margin.depth [⟨margin.line + 1, true, text⟩])
    rw [tokens, measured, Scan.append_tokens, List.filter_append]
    change margin.lineBreak.filter _ ++ (Line.marks margin.depth _).filter _ = _
    rw [noMarks, List.nil_append]
    exact all
  · rw [tokens, measured]
    simp [Line.misalignments, Scan.ofTokens, broken, after]

/-- No other piece sets a depth, though lines may start inside it. -/
theorem measures_other (margin : Margin) (ahead : List Piece) (other : (cut c rest).1 ≠ .lineBreak) :
    margin.Measures
      (Line.within margin.line (cut c rest).1.freesLines (cut c rest).2 (cut c rest).1.text)
      (margin.advance (cut c rest).1 ahead).1 (margin.advance (cut c rest).1 ahead).2 := by
  have unfree : ∀ line ∈ Line.within margin.line (cut c rest).1.freesLines (cut c rest).2
      (cut c rest).1.text, line.free = false := by
    cases frees : (cut c rest).1.freesLines with
    | true =>
        rw [Line.within_of_notMem _ _ (newline_notMem_of_cut frees other)]
        simp
    | false => exact fun line member => Line.free_within member
  obtain ⟨depth, marks, errors⟩ := Line.unfree_idle unfree margin.depth
  have written := cut_written c rest
  generalize (cut c rest).1 = piece at *
  refine ⟨?_, ?_, ?_⟩
  · rw [depth]
    cases piece with
    | lineBreak => exact absurd rfl other
    | blank | comment | joint | lexeme | stray | unclosed => rfl
  · rw [marks]
    cases piece with
    | lineBreak => exact absurd rfl other
    | blank | comment | joint | stray | unclosed => rfl
    | lexeme kind text =>
        have flat : kind.isBlockMark = false := Kind.isBlockMark_of_written written
        simp [advance, Scan.ofTokens, Token.ofText, flat]
  · rw [errors]
    cases piece with
    | lineBreak => exact absurd rfl other
    | blank | comment | joint | lexeme | stray | unclosed => rfl

/-- Every piece sets the depths of the lines that start inside it. -/
theorem measures_advance (margin : Margin) (c : Char) (rest : List Char) :
    margin.Measures
      (Line.within margin.line (cut c rest).1.freesLines (cut c rest).2 (cut c rest).1.text)
      (margin.advance (cut c rest).1 (split (cut c rest).2)).1
      (margin.advance (cut c rest).1 (split (cut c rest).2)).2 := by
  by_cases breaks : (cut c rest).1 = .lineBreak
  · rw [breaks]
    exact measures_lineBreak margin (cut c rest).2
  · exact measures_other margin _ breaks

/-- The tokens of the pieces give the lines inside them their depths. -/
theorem measures_gather (margin : Margin) (text : List Char) :
    margin.Measures (Line.after margin.line (split text))
      ⟨(margin.gather (split text)).1, (margin.arrange (split text)).errors⟩
      (margin.gather (split text)).2 := by
  induction text using split.induct generalizing margin with
  | case1 =>
      rw [split]
      exact ⟨rfl, rfl, rfl⟩
  | case2 c rest first inductionHypothesis =>
      have step := measures_advance margin c rest
      have further := inductionHypothesis (margin.advance (cut c rest).1 (split (cut c rest).2)).2
      rw [advance_line] at further
      rw [split_cons, Line.after, split_text]
      exact step.trans further

end Advance

section Places

/-- The measured marks stand on the line of the margin. -/
theorem measure_places (margin : Margin) (ahead : List Piece) :
    ∀ token ∈ (margin.measure ahead).1.tokens,
      token.line = margin.line ∧ token.kind.isBlockMark = true := by
  intro token member
  unfold measure at member
  dsimp only at member
  split at member
  · cases member
  split at member
  · cases member
  · refine ⟨?_, steps_isBlockMark _ _ _ token member⟩
    obtain member | member := List.mem_append.1 member
    · rw [List.eq_of_mem_replicate member]
      rfl
    · rw [List.eq_of_mem_replicate member]
      rfl

/-- The tokens of a piece stand on the lines from its first to its last. Its own token stands on the
first one, and block marks on a later one. -/
theorem advance_places (margin : Margin) {piece : Piece} (ahead : List Piece)
    (written : piece.IsWritten) : ∀ token ∈ (margin.advance piece ahead).1.tokens,
      margin.line ≤ token.line ∧ token.line ≤ (margin.advance piece ahead).2.line ∧
        (token.kind.isLayout = false → token.line = margin.line) ∧
        (token.kind.isBlockMark = true → margin.line < token.line) := by
  intro token member
  rw [advance_line]
  cases piece with
  | blank | comment | joint | stray | unclosed => cases member
  | lexeme kind text =>
      obtain rfl := List.mem_singleton.1 member
      have flat : kind.isBlockMark = false := Kind.isBlockMark_of_written written
      simp [Token.ofText, lineAfter, flat]
  | lineBreak =>
      have next : margin.lineAfter Piece.lineBreak.text = margin.line + 1 := rfl
      rw [next]
      obtain member | member := List.mem_append.1 member
      · rw [lineBreak_kinds margin token member, lineBreak_lines margin token member]
        simp [Kind.isLayout, Kind.isBlockMark]
      · obtain ⟨line, mark⟩ := measure_places margin.broken ahead token member
        have layout := Kind.isLayout_of_isBlockMark mark
        simp [line, layout, broken, after]

/-- The tokens of a line break are layout tokens. -/
theorem lineBreak_isLayout (margin : Margin) (ahead : List Piece) :
    ∀ token ∈ (margin.advance .lineBreak ahead).1.tokens, token.kind.isLayout = true := by
  intro token member
  obtain member | member := List.mem_append.1 member
  · rw [lineBreak_kinds margin token member]
    rfl
  · exact Kind.isLayout_of_isBlockMark (measure_places _ ahead token member).2

/-- The tokens of the pieces stand between the two margins, and block marks on later lines. -/
theorem gather_places (margin : Margin) {pieces : List Piece}
    (written : ∀ piece ∈ pieces, piece.IsWritten) : ∀ token ∈ (margin.gather pieces).1,
      margin.line ≤ token.line ∧ token.line ≤ (margin.gather pieces).2.line ∧
        (token.kind.isBlockMark = true → margin.line < token.line) := by
  induction pieces generalizing margin with
  | nil => exact fun token member => absurd member List.not_mem_nil
  | cons piece ahead inductionHypothesis =>
      rw [List.forall_mem_cons] at written
      have step := advance_places margin ahead written.1
      have further := inductionHypothesis (margin.advance piece ahead).2 written.2
      have forward := advance_line margin piece ahead
      have onward := gather_line (margin.advance piece ahead).2 ahead
      unfold lineAfter at forward onward
      intro token member
      change _ ∧ token.line ≤ ((margin.advance piece ahead).2.gather ahead).2.line ∧ _
      obtain member | member := List.mem_append.1 member
      · obtain ⟨after, before, -, mark⟩ := step token member
        exact ⟨after, by omega, mark⟩
      · obtain ⟨after, before, mark⟩ := further token member
        exact ⟨by omega, before, fun isMark => by have := mark isMark; omega⟩

/-- The tokens of the pieces stand in order around the block marks. -/
theorem gather_inOrder (margin : Margin) {pieces : List Piece}
    (written : ∀ piece ∈ pieces, piece.IsWritten) :
    (margin.gather pieces).1.Pairwise Token.InOrder := by
  induction pieces generalizing margin with
  | nil => exact List.Pairwise.nil
  | cons piece ahead inductionHypothesis =>
      rw [List.forall_mem_cons] at written
      have step := advance_places margin ahead written.1
      have further := gather_places (margin.advance piece ahead).2 written.2
      refine List.pairwise_append.2 ⟨?_, inductionHypothesis _ written.2, ?_⟩
      · cases piece with
        | blank | comment | joint | stray | unclosed => exact List.Pairwise.nil
        | lexeme kind text => exact List.pairwise_singleton _ _
        | lineBreak =>
            have layout := margin.lineBreak_isLayout ahead
            apply List.pairwise_of_forall_mem_list
            intro first firstMember second secondMember
            simp [Token.InOrder, layout first firstMember, layout second secondMember]
      · intro first firstMember second secondMember
        obtain ⟨-, ends, plain, -⟩ := step first firstMember
        obtain ⟨starts, -, mark⟩ := further second secondMember
        have forward := advance_line margin piece ahead
        unfold lineAfter at forward
        constructor
        · intro isMark isPlain
          have := plain isPlain
          have := mark isMark
          omega
        · intro _ _
          omega

end Places

theorem openings_append (first second : List Token) :
    Token.openings (first ++ second) = Token.openings first + Token.openings second :=
  List.countP_append

theorem closings_append (first second : List Token) :
    Token.closings (first ++ second) = Token.closings first + Token.closings second :=
  List.countP_append

/-- The tokens change the depth by what they open and close. -/
theorem Reaches.count {margin next : Margin} {tokens : List Token}
    (reaches : margin.Reaches tokens next) :
    Token.openings tokens + margin.depth = Token.closings tokens + next.depth := by
  have balanced : Balanced margin.depth (tokens ++ next.closing) :=
    (reaches.balance _).2 next.balanced_closing
  obtain ⟨inner, closed, same⟩ := balanced.drop
  have first := closed.count
  have second := next.balanced_closing.count
  omega

/-- A token of the text itself is the lexeme of its piece and stands first. -/
theorem eq_lexeme_of_advance {margin : Margin} {piece : Piece} {ahead : List Piece}
    {front others : List Token} {token : Token}
    (whole : (margin.advance piece ahead).1.tokens = front ++ token :: others)
    (plain : token.kind.isLayout = false) :
    front = [] ∧ ∃ text, piece = .lexeme token.kind text ∧ token.line = margin.line := by
  cases piece with
  | blank | comment | joint | stray | unclosed =>
      have none : [] = front ++ token :: others := whole
      simp at none
  | lexeme kind text =>
      have single : [Token.ofText kind text margin.line] = front ++ token :: others := whole
      obtain ⟨rfl, rest⟩ | ⟨more, rfl, rest⟩ := List.cons_eq_append_iff.1 single
      · obtain ⟨rfl, -⟩ := List.cons.inj rest
        exact ⟨rfl, text, rfl, rfl⟩
      · simp at rest
  | lineBreak =>
      have layout := margin.lineBreak_isLayout ahead token (by simp [whole])
      rw [plain] at layout
      cases layout

/-- A token of the text stands on the line where its lexeme starts, at the depth of the last line
up to there that sets one. -/
theorem gather_located (margin : Margin) (text : List Char) {front back : List Token}
    {token : Token} (whole : (margin.gather (split text)).1 = front ++ token :: back)
    (plain : token.kind.isLayout = false) :
    (∃ before lexeme after, split text = before ++ .lexeme token.kind lexeme :: after ∧
      spellingsOf front = before.flatMap Piece.spellings ∧
      token.line = margin.line + (before.flatMap Piece.text).count '\n') ∧
    Token.openings front + margin.depth = Token.closings front +
      Line.depthAfter margin.depth
        ((Line.after margin.line (split text)).filter (·.number ≤ token.line)) := by
  induction text using split.induct generalizing margin front with
  | case1 =>
      rw [split] at whole
      simp [gather] at whole
  | case2 c rest first inductionHypothesis =>
      have written := cut_written c rest
      have step := measures_advance margin c rest
      have reached := (reaches_advance margin _ (split (cut c rest).2) written).count
      have spelt := spellingsOf_advance margin _ (split (cut c rest).2) written
      have forward := advance_line margin (cut c rest).1 (split (cut c rest).2)
      rw [split_cons] at whole ⊢
      obtain ⟨others, inside⟩ | ⟨others, rfl, further⟩ := append_cons_cases whole
      · obtain ⟨rfl, lexeme, piece, line⟩ := eq_lexeme_of_advance inside plain
        refine ⟨⟨[], lexeme, split (cut c rest).2, by rw [piece]; rfl, rfl, line⟩, ?_⟩
        have noLines : (Line.after margin.line ((cut c rest).1 :: split (cut c rest).2)).filter
            (·.number ≤ token.line) = [] := by
          rw [List.filter_eq_nil_iff]
          intro later member
          have := Line.number_after member
          simp only [decide_eq_true_eq]
          omega
        rw [noLines]
        rfl
      · obtain ⟨⟨before, lexeme, after, pieces, spellings, line⟩, depth⟩ :=
          inductionHypothesis _ further
        rw [forward] at line depth
        unfold lineAfter at line depth
        dsimp only [first] at depth
        refine ⟨⟨(cut c rest).1 :: before, lexeme, after, by rw [pieces]; rfl, ?_, ?_⟩, ?_⟩
        · rw [spellingsOf_append, spelt, spellings, List.flatMap_cons]
        · rw [line, List.flatMap_cons, List.count_append, Nat.add_assoc]
        · have earlier : (Line.within margin.line (cut c rest).1.freesLines (cut c rest).2
              (cut c rest).1.text).filter (·.number ≤ token.line) = Line.within margin.line
                (cut c rest).1.freesLines (cut c rest).2 (cut c rest).1.text := by
            rw [List.filter_eq_self]
            intro inner member
            have := Line.number_within member
            simp only [decide_eq_true_eq]
            omega
          rw [Line.after, split_text, List.filter_append, earlier, Line.depthAfter_append,
            ← step.depth, openings_append, closings_append]
          omega

/-- What the end adds stands on the last line, opens no block and closes every open one. -/
theorem finish_places (margin : Margin) : (∀ token ∈ margin.finish,
    token.kind.isLayout = true ∧ token.kind ≠ .indent ∧ token.line = margin.line) ∧
      Token.closings margin.finish = margin.depth := by
  rw [finish_eq]
  constructor
  · intro token member
    obtain member | member := List.mem_append.1 member
    · obtain ⟨none, -⟩ | ⟨before, -, -, found⟩ := margin.lastBreak_cases
      · rw [none] at member
        cases member
      · rw [found] at member
        rw [List.mem_singleton.1 member]
        exact ⟨rfl, by simp [Token.layout], rfl⟩
    · obtain member | member := List.mem_append.1 member
      · rw [List.eq_of_mem_replicate member]
        exact ⟨rfl, by simp [Token.layout], rfl⟩
      · rw [List.mem_singleton.1 member]
        exact ⟨rfl, by simp [Token.layout], rfl⟩
  · have noBreak : Token.closings margin.lastBreak = 0 := by
      obtain ⟨none, -⟩ | ⟨before, -, -, found⟩ := margin.lastBreak_cases
      · rw [none]
        rfl
      · rw [found]
        rfl
    rw [closings_append, noBreak, closing, closings_append]
    simp [Token.closings, Token.layout, List.countP_replicate]

/-- A text is laid out as if a line break stood before it. -/
def outset : Margin := ⟨0, 0, none⟩

end Margin

section Source

open Piece Margin

variable (source : String)

/-- The tokens of a text are those of the text behind a line break. -/
theorem scan_tokens_eq : (scan source).tokens =
    (outset.gather (split ('\n' :: source.toList))).1 ++
      (outset.gather (split ('\n' :: source.toList))).2.finish := by
  rw [scan, scanPieces_tokens, split_cons]
  rfl

/-- The errors of a text are those of the text behind a line break. -/
theorem scan_errors_eq :
    (scan source).errors = (outset.arrange (split ('\n' :: source.toList))).errors := by
  rw [scan, split_cons]
  rfl

/-- The lines of a text are those inside the text behind a line break. -/
theorem linesOf_eq : linesOf source = Line.after outset.line (split ('\n' :: source.toList)) := by
  rw [split_cons, Line.after, split_text, linesOf]
  rfl

end Source

/-- The scan follows the indentation of the lines of the text. -/
structure Indented (source : String) (scan : Scan) : Prop where
  /-- No line is left out. -/
  numbered : (linesOf source).map Line.number = List.range' 1 (1 + source.toList.count '\n')
  /-- A token of the text stands on the line where its lexeme starts. -/
  located : ∀ front token back, scan.tokens = front ++ token :: back →
    token.kind.isLayout = false → ∃ before text after,
      Piece.split source.toList = before ++ .lexeme token.kind text :: after ∧
      spellingsOf front = before.flatMap Piece.spellings ∧
      token.line = 1 + (before.flatMap Piece.text).count '\n'
  /-- The blocks that are open at a token are those of the last line that set a depth. -/
  depth : ∀ front token back, scan.tokens = front ++ token :: back →
    token.kind.isLayout = false → Token.openings front = Token.closings front +
      Line.depthAfter 0 ((linesOf source).filter (·.number ≤ token.line))
  /-- Every line has its own block marks, before its first token, and only the end of the text adds
  others. -/
  marks : ∃ body ending, scan.tokens = body ++ ending ∧
    body.filter (·.kind.isBlockMark) = Line.marks 0 (linesOf source) ∧
    body.Pairwise Token.InOrder ∧
    (∀ token ∈ ending, token.kind.isLayout = true ∧ token.kind ≠ .indent ∧
      token.line = 1 + source.toList.count '\n') ∧
    Token.closings ending = Line.depthAfter 0 (linesOf source)
  /-- Every misaligned line is an error. -/
  errors : scan.errors.filter (·.flaw == .misalignedIndent) = Line.misalignments (linesOf source)

/-- The depth of every line is computed exactly. -/
theorem scan_indented (source : String) : Indented source (scan source) := by
  have tokens := scan_tokens_eq source
  have lines := linesOf_eq source
  have measured := Margin.measures_gather .outset ('\n' :: source.toList)
  have written := Piece.split_written ('\n' :: source.toList)
  have inBody {front back : List Token} {token : Token}
      (whole : (scan source).tokens = front ++ token :: back)
      (plain : token.kind.isLayout = false) : ∃ others,
        (Margin.outset.gather (Piece.split ('\n' :: source.toList))).1 =
          front ++ token :: others := by
    rw [tokens] at whole
    obtain inside | ⟨others, -, ending⟩ := append_cons_cases whole
    · exact inside
    · have member : token ∈ others ++ token :: back := by simp
      rw [← ending] at member
      have layout := ((Margin.finish_places _).1 token member).1
      rw [plain] at layout
      cases layout
  refine ⟨?_, ?_, ?_, ?_, ?_⟩
  · rw [lines, Line.map_number_after, Piece.split_text, List.count_cons_self, Nat.add_comm 1]
    rfl
  · intro front token back whole plain
    obtain ⟨others, inside⟩ := inBody whole plain
    obtain ⟨⟨before, lexeme, after, pieces, spellings, line⟩, -⟩ :=
      Margin.gather_located _ _ inside plain
    rw [Piece.split_cons] at pieces
    cases before with
    | nil => cases (List.cons.inj pieces).1
    | cons piece before =>
        obtain ⟨rfl, rest⟩ := List.cons.inj pieces
        refine ⟨before, lexeme, after, rest, spellings, ?_⟩
        rw [line, List.flatMap_cons, List.count_append, ← Nat.add_assoc]
        rfl
  · intro front token back whole plain
    obtain ⟨others, inside⟩ := inBody whole plain
    rw [lines]
    exact (Margin.gather_located _ _ inside plain).2
  · obtain ⟨ending, closings⟩ :=
      Margin.finish_places (Margin.outset.gather (Piece.split ('\n' :: source.toList))).2
    rw [Margin.gather_line, Margin.lineAfter, Piece.split_text, List.count_cons_self] at ending
    rw [lines]
    refine ⟨_, _, tokens, measured.marks, Margin.gather_inOrder _ written, ?_, ?_⟩
    · intro token member
      obtain ⟨layout, kind, line⟩ := ending token member
      refine ⟨layout, kind, ?_⟩
      rw [line, Nat.add_comm 1]
      exact Nat.zero_add _
    · rw [closings]
      exact measured.depth
  · rw [scan_errors_eq, lines]
    exact measured.errors

end Offside
