/-
This file proves that lexemes with a space between them are read back as the tokens that they come
from.
-/

import Offside.Proofs.Lexeme.Scan
import Offside.Proofs.Seam.Layout

namespace Offside

/-- The lexeme of the spelling has this kind and this literal. -/
def Spelling.Genuine (spelling : Spelling) : Prop :=
  Denotes spelling.lexeme.toList spelling.kind spelling.literal

/-- A text has the spellings of lexemes only. -/
theorem Reading.genuine {text : List Char} {spelt : List Spelling} {flawed : List Flaw}
    (reading : Reading text spelt flawed) : ∀ spelling ∈ spelt, spelling.Genuine := by
  induction reading with
  | done => simp
  | gap _ _ inductionHypothesis => exact inductionHypothesis
  | lexeme denotes _ _ _ inductionHypothesis =>
      rw [List.forall_mem_cons]
      constructor
      · change Denotes (String.ofList _).toList _ _
        rwa [String.toList_ofList]
      · exact inductionHypothesis
  | stray _ _ _ inductionHypothesis => exact inductionHypothesis
  | unclosed => simp

/-- Every token that is written in a text is spelled as a lexeme. -/
theorem genuine_of_scan {source : String} {token : Token} (member : token ∈ (scan source).tokens)
    (written : token.kind.isLayout = false) : token.spelling.Genuine := by
  have present : token.spelling ∈ spellingsOf (scan source).tokens := by
    apply List.mem_map_of_mem
    simp [member, written]
  rw [spellingsOf_scan] at present
  exact (Piece.reading_split source.toList).genuine _ present

section Space

variable {text rest : List Char} {kind : Kind} {literal : Option Literal}

/-- A word is made of name parts. -/
theorem Word.isNamePart (isWord : Word text) : ∀ c ∈ text, Piece.isNamePart c = true := by
  cases text with
  | nil => simp
  | cons first rest =>
      rw [List.forall_mem_cons]
      constructor
      · have starts := isWord.1
        simp only [Piece.isNameStart, Piece.isNamePart, Char.isAlphanum, Bool.or_eq_true] at *
        tauto
      · exact isWord.2

theorem Digits.isNamePart (digits : Digits text) : ∀ c ∈ text, Piece.isNamePart c = true := by
  intro c member
  simp [Piece.isNamePart, Char.isAlphanum, digits.all c member]

/-- Only in symbols and in strings are there characters that no word and no number has. -/
theorem Denotes.symbol_or_quoted (denotes : Denotes text kind literal) {c : Char}
    (member : c ∈ text) (other : Piece.isNamePart c = false) (noPoint : c ≠ '.') :
    (∃ symbol : Symbol, text = symbol.text) ∨ ∃ body, '"' ∉ body ∧ text = '"' :: body ++ ['"'] := by
  have outside {part : List Char} (parts : ∀ d ∈ part, Piece.isNamePart d = true) : c ∉ part := by
    intro inside
    rw [parts c inside] at other
    cases other
  cases denotes with
  | symbol symbol => exact .inl ⟨symbol, rfl⟩
  | whole digits => exact absurd member (outside digits.isNamePart)
  | fraction whole digits =>
      simp [outside whole.isNamePart, outside digits.isNamePart, noPoint] at member
  | string free => exact .inr ⟨_, free, rfl⟩
  | keyword keyword => exact absurd member (outside keyword.word.isNamePart)
  | name isWord => exact absurd member (outside isWord.isNamePart)

/-- A lexeme with a space in it is a string. -/
theorem Denotes.quoted_of_space (denotes : Denotes text kind literal) (space : ' ' ∈ text) :
    ∃ body, '"' ∉ body ∧ text = '"' :: body ++ ['"'] := by
  obtain ⟨symbol, rfl⟩ | quoted := denotes.symbol_or_quoted space (by decide) (by decide)
  · cases symbol <;> simp [Symbol.text] at space
  · exact quoted

/-- A lexeme that starts with a quote is a string. -/
theorem Denotes.quoted_of_head (denotes : Denotes text kind literal)
    (quote : text.head? = some '"') : ∃ body, '"' ∉ body ∧ text = '"' :: body ++ ['"'] := by
  obtain ⟨symbol, rfl⟩ | quoted :=
    denotes.symbol_or_quoted (List.mem_of_head? quote) (by decide) (by decide)
  · cases symbol <;> simp [Symbol.text] at quote
  · exact quoted

/-- The only lexeme that starts with a slash is the slash. -/
theorem Denotes.slash_of_head (denotes : Denotes text kind literal)
    (slash : text.head? = some '/') : text = ['/'] := by
  obtain ⟨symbol, rfl⟩ | ⟨body, -, rfl⟩ :=
    denotes.symbol_or_quoted (List.mem_of_head? slash) (by decide) (by decide)
  · cases symbol <;> simp [Symbol.text] at slash ⊢
  · simp at slash

/-- A string ends with its second quote, so no string goes on after another. -/
theorem eq_nil_of_quoted {body other extra : List Char} (free : '"' ∉ body) (closed : '"' ∉ other)
    (same : '"' :: other ++ ['"'] = '"' :: body ++ ['"'] ++ extra) : extra = [] := by
  have inner : other ++ ['"'] = body ++ '"' :: extra := by simpa using same
  have left : (other ++ ['"']).dropWhile (· != '"') = ['"'] := by
    rw [List.dropWhile_append_of_pos (bne_of_notMem closed)]
    rfl
  have right : (body ++ '"' :: extra).dropWhile (· != '"') = '"' :: extra := by
    rw [List.dropWhile_append_of_pos (bne_of_notMem free)]
    rfl
  rw [inner, right] at left
  exact (List.cons.inj left).2

/-- The text is empty or starts with a space. -/
def AtSpace (text : List Char) : Prop := ∀ first ∈ text.head?, first = ' '

/-- No lexeme goes on over the space after a lexeme. -/
theorem longest_of_space (denotes : Denotes text kind literal) (space : AtSpace rest) :
    Longest text (text ++ rest) where
  starts := List.prefix_append text rest
  longest other isLexeme starts := by
    by_contra longer
    obtain ⟨extra, rfl⟩ : text <+: other :=
      List.prefix_of_prefix_length_le (List.prefix_append text rest) starts (by omega)
    have more : extra ≠ [] := by
      intro none
      simp [none] at longer
    obtain ⟨first, later, rfl⟩ := List.exists_cons_of_ne_nil more
    obtain ⟨_, beyond⟩ := (List.prefix_append_right_inj text).1 starts
    have isSpace : first = ' ' := space first (by rw [← beyond]; rfl)
    -- What goes over a space is a string. So the lexeme before the space is one too.
    obtain ⟨_, _, wider⟩ := isLexeme
    obtain ⟨body, free, quoted⟩ := wider.quoted_of_space (by simp [isSpace])
    have head : text.head? = some '"' := by
      have whole := congrArg List.head? quoted
      rwa [List.head?_append_of_ne_nil _ denotes.ne_nil] at whole
    obtain ⟨inner, closed, rfl⟩ := denotes.quoted_of_head head
    exact more (eq_nil_of_quoted closed free quoted.symm)

/-- The space keeps a slash from becoming a comment. -/
theorem noComment_of_space (denotes : Denotes text kind literal) (space : AtSpace rest) :
    ¬ ['/', '/'] <+: text ++ rest := by
  intro slashes
  obtain ⟨tail, whole⟩ := slashes
  have head : text.head? = some '/' := by
    have first := congrArg List.head? whole
    rw [List.head?_append_of_ne_nil _ denotes.ne_nil] at first
    exact first.symm
  rw [denotes.slash_of_head head] at whole
  have later : '/' :: tail = rest := (List.cons.inj whole).2
  have second : '/' = ' ' := space '/' (by rw [← later]; rfl)
  revert second
  decide

/-- A lexeme before a space is cut off as it stands. -/
theorem Piece.split_lexeme (denotes : Denotes text kind literal) (space : AtSpace rest) :
    split (text ++ rest) = lexeme kind text :: split rest := by
  have longest := longest_of_space denotes space
  have noComment := noComment_of_space denotes space
  obtain ⟨c, tail, rfl⟩ := List.exists_cons_of_ne_nil denotes.ne_nil
  rw [List.cons_append] at longest noComment ⊢
  have piece := cut_of_longest denotes longest noComment
  have after : (cut c (tail ++ rest)).2 = rest := by
    simpa [piece, Piece.text] using cut_text c (tail ++ rest)
  rw [split]
  simp [piece, after]

end Space

/-- These are the lexemes as pieces, with a space between them. -/
def Spelling.pieces (spellings : List Spelling) : List Piece :=
  (spellings.map fun spelling => .lexeme spelling.kind spelling.lexeme.toList).intersperse
    (.blank ' ')

/-- Lexemes with spaces between them are cut where the spaces are. -/
theorem Piece.split_spaced {spellings : List Spelling}
    (genuine : ∀ spelling ∈ spellings, spelling.Genuine) :
    split (" ".intercalate (spellings.map Spelling.lexeme)).toList = Spelling.pieces spellings := by
  rw [String.toList_intercalate, List.map_map]
  change split ([' '].intercalate _) = _
  induction spellings with
  | nil =>
      change split [] = []
      rw [split]
  | cons first others inductionHypothesis =>
      rw [List.forall_mem_cons] at genuine
      have further := inductionHypothesis genuine.2
      cases others with
      | nil =>
          have alone : split (first.lexeme.toList ++ []) = _ :=
            split_lexeme genuine.1 (by simp [AtSpace])
          rw [List.append_nil, split] at alone
          simpa [Spelling.pieces] using alone
      | cons second others =>
          generalize rest : [' '].intercalate _ = later at further
          have lead : split (first.lexeme.toList ++ ' ' :: later) = _ :=
            split_lexeme genuine.1 (by simp [AtSpace])
          have gap : split (' ' :: later) = .blank ' ' :: split later := by
            rw [split]
            rfl
          rw [gap, further] at lead
          rw [List.map_cons, List.map_cons, List.intercalate_cons_cons, ← List.map_cons, rest,
            List.append_assoc]
          exact lead

/-- This layout token has no characters. -/
def Spelling.ofLayout (kind : Kind) : Spelling := ⟨kind, "", none⟩

/-- The end of the text ends a statement that the last lexeme leaves open. -/
def Spelling.ending (spellings : List Spelling) : List Spelling :=
  (if spellings.getLast?.any fun last => last.kind != .symbol .semicolon then [ofLayout .newline]
    else []) ++ [ofLayout .eof]

/-- Of all lexemes only a semicolon ends a line. -/
theorem Denotes.endsLine_eq {text : List Char} {kind : Kind} {literal : Option Literal}
    (denotes : Denotes text kind literal) : kind.endsLine = (kind == .symbol .semicolon) := by
  cases denotes with
  | symbol symbol => cases symbol <;> rfl
  | _ => rfl

namespace Margin

/-- A token of a genuine spelling is spelled that way. -/
theorem spelling_ofText {spelling : Spelling} (genuine : spelling.Genuine) (line : Nat) :
    (Token.ofText spelling.kind spelling.lexeme.toList line).spelling = spelling := by
  have literal := genuine.literal_eq
  simp [Token.ofText, Token.spelling, ← literal]

/-- This is the margin after a lexeme. -/
def afterLexeme (margin : Margin) (spelling : Spelling) : Margin :=
  { margin with line := margin.lineAfter spelling.lexeme.toList, last := spelling.kind }

/-- At the end only the last lexeme decides whether a statement is still open. -/
theorem spelling_finish {margin : Margin} (outside : margin.depth = 0) {spelling : Spelling}
    (genuine : spelling.Genuine) :
    (margin.afterLexeme spelling).finish.map Token.spelling = Spelling.ending [spelling] := by
  have ends := genuine.endsLine_eq
  cases last : spelling.kind == .symbol .semicolon <;>
    simp [finish, afterLexeme, outside, ends, last, Spelling.ending, Spelling.ofLayout, bne,
      Token.spelling, Token.layout]

/-- Outside every block, a row of lexemes gives its own tokens and the end. -/
theorem arrange_spaced {spellings : List Spelling} (some : spellings ≠ [])
    (genuine : ∀ spelling ∈ spellings, spelling.Genuine) {margin : Margin}
    (outside : margin.depth = 0) :
    (margin.arrange (Spelling.pieces spellings)).errors = [] ∧
      (margin.arrange (Spelling.pieces spellings)).tokens.map Token.spelling =
        spellings ++ Spelling.ending spellings := by
  induction spellings generalizing margin with
  | nil => exact absurd rfl some
  | cons first others inductionHypothesis =>
      rw [List.forall_mem_cons] at genuine
      have token := spelling_ofText genuine.1 margin.line
      cases others with
      | nil =>
          refine ⟨rfl, ?_⟩
          change Token.spelling _ :: (margin.afterLexeme first).finish.map Token.spelling = _
          rw [token, spelling_finish outside genuine.1]
          rfl
      | cons second others =>
          let next := margin.afterLexeme first
          have step : (next.advance (.blank ' ') []).2.depth = 0 := outside
          obtain ⟨errors, tokens⟩ := inductionHypothesis (List.cons_ne_nil _ _) genuine.2 step
          refine ⟨errors, ?_⟩
          change Token.spelling _ :: ((next.advance (.blank ' ') []).2.arrange
            (Spelling.pieces (second :: others))).tokens.map Token.spelling = _
          rw [token, tokens]
          simp [Spelling.ending]

/-- A text that starts with a lexeme starts outside every block. -/
theorem measure_lexeme (kind : Kind) (text : List Char) (ahead : List Piece) :
    start.measure (.lexeme kind text :: ahead) = (.empty, start) := by
  have first : (Piece.lexeme kind text == .blank ' ') = false := by simp
  have content : content (.lexeme kind text :: ahead) = .lexeme kind text :: ahead := by
    simp [content, first]
  have spaces : spaces (.lexeme kind text :: ahead) = 0 := by simp [spaces, first]
  rw [measure_aligned (by rw [content]; rfl) (by rw [spaces]; rfl), spaces]
  rfl

end Margin

/-- Genuine lexemes with spaces between them are scanned as they are. -/
theorem scanPieces_spaced {spellings : List Spelling}
    (genuine : ∀ spelling ∈ spellings, spelling.Genuine) :
    (scanPieces (Spelling.pieces spellings)).errors = [] ∧
      (scanPieces (Spelling.pieces spellings)).tokens.map Token.spelling =
        spellings ++ Spelling.ending spellings := by
  cases spellings with
  | nil => exact ⟨rfl, rfl⟩
  | cons first others =>
      have measured : Margin.start.measure (Spelling.pieces (first :: others)) =
          (.empty, .start) := by
        cases others <;> exact Margin.measure_lexeme first.kind first.lexeme.toList _
      unfold scanPieces
      rw [measured]
      exact Margin.arrange_spaced (List.cons_ne_nil _ _) genuine rfl

/-- Lexemes of any texts, with single spaces between them, are read back: the tokens have the same
kinds, lexemes and literals. The layout adds the end of a statement that is still open, and the
end. -/
theorem scan_spaced (tokens : List Token)
    (scanned : ∀ token ∈ tokens, token.kind.isLayout = false ∧
      ∃ source, token ∈ (scan source).tokens) :
    let again := scan (" ".intercalate (tokens.map Token.lexeme))
    again.errors = [] ∧ again.tokens.map Token.spelling = tokens.map Token.spelling ++
      ((if tokens.getLast?.any fun last => last.kind != .symbol .semicolon then
        [.ofLayout .newline] else []) ++ [.ofLayout .eof]) := by
  have genuine : ∀ spelling ∈ tokens.map Token.spelling, spelling.Genuine := by
    rw [List.forall_mem_map]
    intro token member
    obtain ⟨written, source, present⟩ := scanned token member
    exact genuine_of_scan present written
  have pieces := Piece.split_spaced genuine
  rw [List.map_map] at pieces
  have again : scan (" ".intercalate (tokens.map Token.lexeme)) =
      scanPieces (Spelling.pieces (tokens.map Token.spelling)) := congrArg scanPieces pieces
  have laid := scanPieces_spaced genuine
  rw [Spelling.ending, List.getLast?_map, Option.any_map] at laid
  rw [again]
  exact laid

/-- A string over two lines, a slash, a point and a number do not run into one another. -/
theorem scan_spaced_side_by_side :
    let tokens : List Token := [⟨.string, "\"a\nb\"", some (.string "a\nb"), 1⟩,
      ⟨.symbol .slash, "/", none, 2⟩, ⟨.symbol .dot, ".", none, 2⟩,
      .ofText .number ['1'] 2, ⟨.symbol .semicolon, ";", none, 2⟩]
    (∀ token ∈ tokens, token.kind.isLayout = false ∧ ∃ source, token ∈ (scan source).tokens) ∧
      (scan "\"a\nb\" / . 1 ;").errors = [] ∧
      (scan "\"a\nb\" / . 1 ;").tokens.map Token.spelling =
        tokens.map Token.spelling ++ [.ofLayout .eof] := by
  intro tokens
  have scanned : (scan "\"a\nb\"/.1;").tokens = tokens ++ [.layout .eof 2] := by
    unfold scan
    rw [Piece.split_eq_splitWithin (Nat.le_refl 9)]
    rfl
  have written : ∀ token ∈ tokens, token.kind.isLayout = false := by decide
  have given : ∀ token ∈ tokens, token.kind.isLayout = false ∧
      ∃ source, token ∈ (scan source).tokens := by
    intro token member
    refine ⟨written token member, "\"a\nb\"/.1;", ?_⟩
    rw [scanned]
    exact List.mem_append_left _ member
  have joined : " ".intercalate (tokens.map Token.lexeme) = "\"a\nb\" / . 1 ;" := by decide
  have again := scan_spaced tokens given
  rw [joined] at again
  exact ⟨given, again⟩

end Offside
