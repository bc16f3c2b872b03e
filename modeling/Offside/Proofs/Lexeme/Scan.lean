/-
This file proves that a scan keeps all that is read in a text: the layout of the lines adds tokens
and errors of its own, and leaves those of the text alone.
-/

import Offside.Proofs.Layout
import Offside.Proofs.Lexeme.Pieces

namespace Offside

/-- What the token stands for, wherever it is written. -/
def Token.spelling (token : Token) : Spelling := ⟨token.kind, token.lexeme, token.literal⟩

/-- These are the spellings of the tokens that have characters. -/
def spellingsOf (tokens : List Token) : List Spelling :=
  (tokens.filter fun token => !token.kind.isLayout).map Token.spelling

/-- These are the flaws that lie in the characters of a text, not in its layout. -/
def flawsOf (errors : List LexicalError) : List Flaw :=
  (errors.map LexicalError.flaw).filter (· != .misalignedIndent)

section Layout

theorem spellingsOf_append (first second : List Token) :
    spellingsOf (first ++ second) = spellingsOf first ++ spellingsOf second := by
  simp [spellingsOf]

theorem flawsOf_append (first second : List LexicalError) :
    flawsOf (first ++ second) = flawsOf first ++ flawsOf second := by
  simp [flawsOf]

/-- Layout tokens spell nothing. -/
theorem spellingsOf_layout {tokens : List Token}
    (layout : ∀ token ∈ tokens, token.kind.isLayout = true) : spellingsOf tokens = [] := by
  simpa [spellingsOf] using layout

namespace Margin

/-- An indentation spells nothing. -/
theorem spellingsOf_measure (margin : Margin) (ahead : List Piece) :
    spellingsOf (margin.measure ahead).1.tokens = [] := by
  unfold measure
  dsimp only
  split
  · rfl
  split
  · rfl
  · apply spellingsOf_layout
    intro token member
    have mark := steps_isBlockMark _ _ _ token member
    cases kind : token.kind <;> simp_all [Kind.isBlockMark, Kind.isLayout]

/-- An indentation adds no flaw of the characters. -/
theorem flawsOf_measure (margin : Margin) (ahead : List Piece) :
    flawsOf (margin.measure ahead).1.errors = [] := by
  unfold measure
  dsimp only
  split
  · rfl
  split <;> rfl

theorem spellingsOf_lineBreak (margin : Margin) : spellingsOf margin.lineBreak = [] := by
  unfold lineBreak
  split
  · rfl
  split <;> rfl

/-- The end of the text spells nothing. -/
theorem spellingsOf_finish (margin : Margin) : spellingsOf margin.finish = [] := by
  apply spellingsOf_layout
  intro token member
  rw [finish_eq] at member
  obtain member | member := List.mem_append.1 member
  · obtain ⟨none, -⟩ | ⟨before, -, -, found⟩ := margin.lastBreak_cases
    · rw [none] at member
      cases member
    · rw [found] at member
      rw [List.mem_singleton.1 member]
      rfl
  · obtain kind | kind := margin.closing_kinds token member <;> rw [kind] <;> rfl

/-- A piece adds what it stands for, and layout adds nothing. -/
theorem spellingsOf_advance (margin : Margin) (piece : Piece) (ahead : List Piece)
    (written : piece.IsWritten) :
    spellingsOf (margin.advance piece ahead).1.tokens = piece.spellings := by
  cases piece with
  | blank | comment | joint | stray | unclosed => rfl
  | lexeme kind text =>
      have plain : kind.isLayout = false := written
      simp [advance, Scan.ofTokens, spellingsOf, Token.ofText, Token.spelling, plain,
        Piece.spellings]
  | lineBreak =>
      change spellingsOf (margin.lineBreak ++ _) = []
      rw [spellingsOf_append, spellingsOf_lineBreak]
      exact spellingsOf_measure _ ahead

/-- A piece adds its own flaws. -/
theorem flawsOf_advance (margin : Margin) (piece : Piece) (ahead : List Piece) :
    flawsOf (margin.advance piece ahead).1.errors = piece.flaws := by
  cases piece with
  | blank | comment | joint | lexeme | stray | unclosed => rfl
  | lineBreak => exact flawsOf_measure _ ahead

/-- The pieces spell their lexemes in a row. -/
theorem spellingsOf_arrange (margin : Margin) (pieces : List Piece)
    (written : ∀ piece ∈ pieces, piece.IsWritten) :
    spellingsOf (margin.arrange pieces).tokens = pieces.flatMap Piece.spellings := by
  induction pieces generalizing margin with
  | nil => exact margin.spellingsOf_finish
  | cons piece ahead inductionHypothesis =>
      rw [List.forall_mem_cons] at written
      change spellingsOf ((margin.advance piece ahead).1.tokens ++ _) = _
      rw [spellingsOf_append, spellingsOf_advance _ _ _ written.1, List.flatMap_cons]
      congr 1
      exact inductionHypothesis _ written.2

/-- The pieces add their flaws in a row. -/
theorem flawsOf_arrange (margin : Margin) (pieces : List Piece) :
    flawsOf (margin.arrange pieces).errors = pieces.flatMap Piece.flaws := by
  induction pieces generalizing margin with
  | nil => rfl
  | cons piece ahead inductionHypothesis =>
      change flawsOf ((margin.advance piece ahead).1.errors ++ _) = _
      rw [flawsOf_append, flawsOf_advance, List.flatMap_cons]
      congr 1
      exact inductionHypothesis _

end Margin

end Layout

/-- A text spells the lexemes of its pieces. -/
theorem spellingsOf_scan (source : String) :
    spellingsOf (scan source).tokens = (Piece.split source.toList).flatMap Piece.spellings := by
  change spellingsOf ((Margin.start.measure _).1.tokens ++ _) = _
  rw [spellingsOf_append, Margin.spellingsOf_measure]
  exact Margin.spellingsOf_arrange _ _ (Piece.split_written source.toList)

/-- A text has the flaws of its pieces. -/
theorem flawsOf_scan (source : String) :
    flawsOf (scan source).errors = (Piece.split source.toList).flatMap Piece.flaws := by
  change flawsOf ((Margin.start.measure _).1.errors ++ _) = _
  rw [flawsOf_append, Margin.flawsOf_measure]
  exact Margin.flawsOf_arrange _ _

/-- A text without lexical errors has neither an open string nor a stray character. -/
theorem flawless_of_scan {source : String} (clean : (scan source).errors = []) :
    ∀ piece ∈ Piece.split source.toList, piece.flaws = [] := by
  have none := flawsOf_scan source
  rw [clean] at none
  exact List.flatMap_eq_nil_iff.1 none.symm

/-- A scan loses nothing of a text and adds nothing to it. The text can be read in one way only, and
what is read are the tokens of the scan with their kinds and literals, and its lexical errors. -/
theorem scan_reading (source : String) (spelt : List Spelling) (flawed : List Flaw) :
    Reading source.toList spelt flawed ↔
      spelt = spellingsOf (scan source).tokens ∧ flawed = flawsOf (scan source).errors := by
  rw [spellingsOf_scan, flawsOf_scan]
  constructor
  · exact Piece.reading_unique
  · rintro ⟨rfl, rfl⟩
    exact Piece.reading_split source.toList

end Offside
