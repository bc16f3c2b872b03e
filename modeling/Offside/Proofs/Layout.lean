/-
This file proves that the tokens of every text are well laid out, whatever its lexical errors.
-/

import Offside.Layout
import Mathlib.Data.List.Basic

namespace Offside

namespace Kind

/-- Layout kinds have no characters. -/
def isLayout : Kind → Bool
  | indent | dedent | newline | eof => true
  | _ => false

/-- Such a kind opens or closes a block. -/
def isBlockMark : Kind → Bool
  | indent | dedent => true
  | _ => false

/-- Such a token leaves the blocks as they are, and the script goes on after it. -/
def isFlat : Kind → Bool
  | indent | dedent | eof => false
  | _ => true

/-- A flat token neither opens nor closes a block. -/
theorem isBlockMark_of_isFlat {kind : Kind} (flat : kind.isFlat = true) :
    kind.isBlockMark = false := by
  cases kind <;> simp_all [isFlat, isBlockMark]

theorem ne_of_isBlockMark_eq_false {kind : Kind} (flat : kind.isBlockMark = false) :
    kind ≠ .indent ∧ kind ≠ .dedent := by
  constructor
  · intro opens
    rw [opens] at flat
    cases flat
  · intro closes
    rw [closes] at flat
    cases flat

/-- A kind opens a block, closes one or does neither. -/
theorem blockMark_cases (kind : Kind) :
    kind = indent ∨ kind = dedent ∨ kind.isBlockMark = false := by
  cases kind <;> simp [isBlockMark]

/-- A word never becomes a layout token. -/
theorem ofWord_isLayout (text : String) : (ofWord text).isLayout = false := by
  unfold ofWord
  split <;> rfl

end Kind

namespace Piece

/-- The text itself never yields a layout token. -/
def IsWritten : Piece → Prop
  | lexeme kind _ => kind.isLayout = false
  | _ => True

/-- A single character never becomes a layout token. -/
theorem cutSingle_written (c : Char) (rest : List Char) : (cutSingle c rest).1.IsWritten := by
  unfold cutSingle
  split <;> simp [IsWritten, Kind.isLayout]

/-- A symbol never becomes a layout token. -/
theorem cutSymbol_written (c : Char) (rest : List Char) : (cutSymbol c rest).1.IsWritten := by
  unfold cutSymbol
  split
  · exact cutSingle_written c []
  · split
    · trivial
    · split
      · simp [IsWritten, Kind.isLayout]
      · exact cutSingle_written c _

/-- No piece that is cut from a text is a layout token. -/
theorem cut_written (c : Char) (rest : List Char) : (cut c rest).1.IsWritten := by
  unfold cut
  split
  · trivial
  split
  · trivial
  split
  · unfold cutTilde
    split <;> trivial
  split
  · unfold cutString
    split <;> simp [IsWritten, Kind.isLayout]
  split
  · unfold cutNumber
    split
    · split <;> simp [IsWritten, Kind.isLayout]
    · simp [IsWritten, Kind.isLayout]
  split
  · exact Kind.ofWord_isLayout _
  · exact cutSymbol_written c rest

/-- No piece of a text is a layout token. -/
theorem split_written (text : List Char) : ∀ piece ∈ split text, piece.IsWritten := by
  induction text using split.induct with
  | case1 => simp [split]
  | case2 c rest first inductionHypothesis =>
      intro piece member
      rw [split, List.mem_cons] at member
      obtain rfl | member := member
      · exact cut_written c rest
      · exact inductionHypothesis piece member

end Piece

/-- The tokens close this many blocks and all the blocks that they open. -/
def Balanced : Nat → List Token → Prop
  | depth, [] => depth = 0
  | depth, token :: rest =>
    match token.kind with
    | .indent => Balanced (depth + 1) rest
    | .dedent => 0 < depth ∧ Balanced (depth - 1) rest
    | _ => Balanced depth rest

namespace Token

def openings (tokens : List Token) : Nat := tokens.countP fun token => token.kind == .indent

def closings (tokens : List Token) : Nat := tokens.countP fun token => token.kind == .dedent

end Token

section Balance

variable {token : Token} {depth : Nat} {rest later : List Token}

/-- An indent asks for one more closing mark. -/
theorem balanced_indent (kind : token.kind = .indent) :
    Balanced depth (token :: rest) ↔ Balanced (depth + 1) rest := by
  simp [Balanced, kind]

/-- A dedent closes one of the open blocks. -/
theorem balanced_dedent (kind : token.kind = .dedent) :
    Balanced depth (token :: rest) ↔ 0 < depth ∧ Balanced (depth - 1) rest := by
  simp [Balanced, kind]

/-- All other tokens leave the depth alone. -/
theorem balanced_flat (kind : token.kind.isBlockMark = false) :
    Balanced depth (token :: rest) ↔ Balanced depth rest := by
  rw [Balanced]
  split <;> simp_all [Kind.isBlockMark]

/-- A row of indents opens that many blocks. -/
theorem balanced_indents (count line : Nat) :
    Balanced depth (List.replicate count (.layout .indent line) ++ later) ↔
      Balanced (depth + count) later := by
  induction count generalizing depth with
  | zero => rfl
  | succ count inductionHypothesis =>
      rw [List.replicate_succ, List.cons_append, balanced_indent rfl, inductionHypothesis]
      rw [Nat.add_assoc, Nat.add_comm 1 count]

/-- A row of dedents closes that many blocks. -/
theorem balanced_dedents (count line : Nat) :
    Balanced (depth + count) (List.replicate count (.layout .dedent line) ++ later) ↔
      Balanced depth later := by
  induction count with
  | zero => rfl
  | succ count inductionHypothesis =>
      rw [List.replicate_succ, List.cons_append, balanced_dedent rfl]
      rw [← Nat.add_assoc, Nat.add_sub_cancel, inductionHypothesis]
      exact and_iff_right (Nat.succ_pos _)

/-- The steps between two depths change the one into the other. -/
theorem balanced_steps (source target line : Nat) :
    Balanced source (Margin.steps source target line ++ later) ↔ Balanced target later := by
  unfold Margin.steps
  obtain deeper | shallower := Nat.le_total source target
  · rw [Nat.sub_eq_zero_of_le deeper, List.replicate_zero, List.append_nil, balanced_indents,
      Nat.add_sub_cancel' deeper]
  · rw [Nat.sub_eq_zero_of_le shallower, List.replicate_zero, List.nil_append]
    have closed : Balanced (target + (source - target))
        (List.replicate (source - target) (.layout .dedent line) ++ later) ↔
          Balanced target later := balanced_dedents _ line
    rwa [Nat.add_sub_cancel' shallower] at closed

/-- What is left after some of the tokens is balanced too, at the depth where they end. -/
theorem Balanced.drop {before after : List Token} (balanced : Balanced depth (before ++ after)) :
    ∃ inner, Balanced inner after ∧
      Token.openings before + depth = Token.closings before + inner := by
  induction before generalizing depth with
  | nil => exact ⟨depth, balanced, by simp [Token.openings, Token.closings]⟩
  | cons token rest inductionHypothesis =>
      unfold Token.openings Token.closings at *
      rw [List.cons_append] at balanced
      rw [List.countP_cons, List.countP_cons]
      obtain opens | closes | flat := token.kind.blockMark_cases
      · obtain ⟨inner, tail, same⟩ := inductionHypothesis ((balanced_indent opens).1 balanced)
        refine ⟨inner, tail, ?_⟩
        simp only [opens, beq_self_eq_true, if_true, reduceCtorEq, beq_iff_eq, if_false]
        omega
      · obtain ⟨positive, closed⟩ := (balanced_dedent closes).1 balanced
        obtain ⟨inner, tail, same⟩ := inductionHypothesis closed
        refine ⟨inner, tail, ?_⟩
        simp only [closes, beq_self_eq_true, if_true, reduceCtorEq, beq_iff_eq, if_false]
        omega
      · obtain ⟨inner, tail, same⟩ := inductionHypothesis ((balanced_flat flat).1 balanced)
        refine ⟨inner, tail, ?_⟩
        obtain ⟨noIndent, noDedent⟩ := Kind.ne_of_isBlockMark_eq_false flat
        simpa [noIndent, noDedent] using same

/-- Balanced tokens close the blocks that were open before them and those that they open. -/
theorem Balanced.count (balanced : Balanced depth rest) :
    Token.openings rest + depth = Token.closings rest := by
  have whole : Balanced depth (rest ++ []) := by rwa [List.append_nil]
  obtain ⟨inner, none, same⟩ := whole.drop
  have closed : inner = 0 := none
  rwa [closed] at same

end Balance

/-- A new line may start here: there is no token yet, or the last one ends or continues its line. -/
def StartsLine (previous : Option Kind) : Prop :=
  ∀ kind ∈ previous, kind.endsLine = true ∨ kind.continuesLine = true

/-- A line break stands after a token that ends no line. It stands after a keyword that continues
the line only where the text ends. A block opens or closes where a line starts. -/
structure Fits (previous : Option Kind) (kind : Kind) (after : List Token) : Prop where
  newline : kind = .newline → ∃ before, previous = some before ∧ before.endsLine = false ∧
    (before.continuesLine = true → ∀ token ∈ after, token.kind = .dedent ∨ token.kind = .eof)
  blockMark : kind.isBlockMark = true → StartsLine previous

/-- Every token fits between the kind before it and the tokens after it. -/
def Laid : Option Kind → List Token → Prop
  | _, [] => True
  | previous, token :: after => Fits previous token.kind after ∧ Laid (some token.kind) after

/-- This is the kind that stands last when the tokens come after the given one. -/
def lastKind (previous : Option Kind) (tokens : List Token) : Option Kind :=
  (tokens.getLast?.map Token.kind).or previous

@[simp]
theorem lastKind_nil (previous : Option Kind) : lastKind previous [] = previous := rfl

@[simp]
theorem lastKind_cons (previous : Option Kind) (token : Token) (rest : List Token) :
    lastKind previous (token :: rest) = lastKind (some token.kind) rest := by
  unfold lastKind
  rw [List.getLast?_cons]
  cases rest.getLast? <;> rfl

theorem lastKind_append (previous : Option Kind) (first second : List Token) :
    lastKind previous (first ++ second) = lastKind (lastKind previous first) second := by
  induction first generalizing previous with
  | nil => rfl
  | cons token rest inductionHypothesis => simp [inductionHypothesis]

/-- A token that the text itself yields fits anywhere. -/
theorem Fits.plain {previous : Option Kind} {kind : Kind} {after : List Token}
    (plain : kind.isLayout = false) : Fits previous kind after where
  newline same := by simp [same, Kind.isLayout] at plain
  blockMark mark := by cases kind <;> simp_all [Kind.isLayout, Kind.isBlockMark]

/-- Any block marks may stand where a line starts. -/
theorem laid_marks {previous : Option Kind} {marks later : List Token}
    (start : StartsLine previous) (all : ∀ token ∈ marks, token.kind.isBlockMark = true)
    (tail : Laid (lastKind previous marks) later) : Laid previous (marks ++ later) := by
  induction marks generalizing previous with
  | nil => exact tail
  | cons mark rest inductionHypothesis =>
      have isMark := all mark List.mem_cons_self
      have others : ∀ token ∈ rest, token.kind.isBlockMark = true :=
        fun token member => all token (List.mem_cons_of_mem _ member)
      have restarts : StartsLine (some mark.kind) := by
        intro kind same
        obtain rfl := Option.mem_some_iff.1 same
        left
        unfold Kind.isBlockMark at isMark
        split at isMark <;> simp_all [Kind.endsLine]
      rw [lastKind_cons] at tail
      refine ⟨⟨?_, fun _ => start⟩, inductionHypothesis restarts others tail⟩
      intro newline
      rw [newline] at isMark
      cases isMark

/-- At every place of laid tokens, the token there fits. -/
theorem Laid.fits {previous : Option Kind} {before after : List Token} {token : Token}
    (laid : Laid previous (before ++ token :: after)) :
    Fits (lastKind previous before) token.kind after := by
  induction before generalizing previous with
  | nil => exact laid.1
  | cons first rest inductionHypothesis =>
      rw [lastKind_cons]
      exact inductionHypothesis laid.2

namespace Margin

/-- These tokens lead from one margin to another. -/
structure Reaches (margin : Margin) (tokens : List Token) (next : Margin) : Prop where
  balance : ∀ later, Balanced margin.depth (tokens ++ later) ↔ Balanced next.depth later
  laid : ∀ later, Laid next.last later → Laid margin.last (tokens ++ later)
  last : next.last = lastKind margin.last tokens
  goesOn : ∀ token ∈ tokens, token.kind ≠ .eof

/-- A margin of the same depth behind the same kind is reached without a token. -/
theorem Reaches.refl {margin next : Margin} (depth : next.depth = margin.depth)
    (last : next.last = margin.last) : Reaches margin [] next where
  balance later := by rw [List.nil_append, depth]
  laid later tail := by rwa [last] at tail
  last := last
  goesOn token member := by cases member

/-- Two ways in a row lead from the first margin to the third. -/
theorem Reaches.trans {first second third : Margin} {tokens others : List Token}
    (start : Reaches first tokens second) (rest : Reaches second others third) :
    Reaches first (tokens ++ others) third where
  balance later := by rw [List.append_assoc, start.balance, rest.balance]
  laid later tail := by
    rw [List.append_assoc]
    exact start.laid _ (rest.laid later tail)
  last := by rw [lastKind_append, ← start.last, rest.last]
  goesOn token member := by
    obtain member | member := List.mem_append.1 member
    · exact start.goesOn token member
    · exact rest.goesOn token member

/-- A written token changes only the last kind. -/
theorem reaches_written {margin next : Margin} {token : Token}
    (written : token.kind.isLayout = false) (depth : next.depth = margin.depth)
    (last : next.last = some token.kind) : Reaches margin [token] next where
  balance later := by
    have flat : token.kind.isBlockMark = false := by
      cases kind : token.kind <;> simp_all [Kind.isLayout, Kind.isBlockMark]
    rw [List.singleton_append, balanced_flat flat, depth]
  laid later tail := by
    rw [last] at tail
    exact ⟨Fits.plain written, tail⟩
  last := last
  goesOn other member := by
    obtain rfl := List.mem_singleton.1 member
    intro eof
    simp [eof, Kind.isLayout] at written

/-- A change of the depth is made of block marks only. -/
theorem steps_isBlockMark (source target line : Nat) :
    ∀ token ∈ steps source target line, token.kind.isBlockMark = true := by
  intro token member
  unfold steps at member
  obtain member | member := List.mem_append.1 member
  · rw [List.eq_of_mem_replicate member]
    rfl
  · rw [List.eq_of_mem_replicate member]
    rfl

/-- The measured indentation leads to the margin of its line. -/
theorem reaches_measure (margin : Margin) (ahead : List Piece) (start : StartsLine margin.last) :
    Reaches margin (margin.measure ahead).1.tokens (margin.measure ahead).2 := by
  unfold measure
  dsimp only
  split
  · exact Reaches.refl rfl rfl
  split
  · exact Reaches.refl rfl rfl
  · exact {
      balance := fun later => balanced_steps _ _ _
      laid := fun later tail => laid_marks start (steps_isBlockMark _ _ _) tail
      last := rfl
      goesOn := by
        intro token member eof
        have mark := steps_isBlockMark _ _ _ token member
        rw [eof] at mark
        cases mark }

/-- After a line break a line starts, with or without a token for the break. -/
theorem reaches_lineBreak (margin next : Margin) (depth : next.depth = margin.depth)
    (last : next.last = margin.last) :
    Reaches margin margin.lineBreak (next.after margin.lineBreak) ∧
      StartsLine (next.after margin.lineBreak).last := by
  unfold lineBreak
  split
  next absent =>
    refine ⟨Reaches.refl depth last, ?_⟩
    intro kind same
    have start : next.last = some kind := same
    rw [last, absent] at start
    cases start
  next before present =>
    split
    next ended =>
      refine ⟨Reaches.refl depth last, ?_⟩
      intro kind same
      have start : next.last = some kind := same
      rw [last, present] at start
      obtain rfl := Option.some.inj start
      simpa using ended
    next goesOn =>
      have neither : before.endsLine = false ∧ before.continuesLine = false := by simpa using goesOn
      refine ⟨⟨?_, ?_, rfl, ?_⟩, ?_⟩
      · intro later
        rw [List.singleton_append, balanced_flat rfl]
        exact iff_of_eq (congrArg (Balanced · later) depth.symm)
      · intro later tail
        refine ⟨⟨fun _ => ⟨before, present, neither.1, ?_⟩, fun mark => by cases mark⟩, tail⟩
        intro continues
        rw [neither.2] at continues
        cases continues
      · intro token member eof
        obtain rfl := List.mem_singleton.1 member
        cases eof
      · intro kind same
        obtain rfl := Option.mem_some_iff.1 same
        exact Or.inl rfl

/-- The tokens of one piece lead to the margin after it. -/
theorem reaches_advance (margin : Margin) (piece : Piece) (ahead : List Piece)
    (written : piece.IsWritten) :
    Reaches margin (margin.advance piece ahead).1.tokens (margin.advance piece ahead).2 := by
  cases piece with
  | blank c => exact Reaches.refl rfl rfl
  | comment body => exact Reaches.refl rfl rfl
  | joint carriage => exact Reaches.refl rfl rfl
  | stray c => exact Reaches.refl rfl rfl
  | unclosed body => exact Reaches.refl rfl rfl
  | lexeme kind text => exact reaches_written written rfl rfl
  | lineBreak =>
      let next := { margin with line := margin.lineAfter Piece.lineBreak.text }
      obtain ⟨broken, start⟩ := reaches_lineBreak margin next rfl rfl
      exact broken.trans (reaches_measure (next.after margin.lineBreak) ahead start)

/-- These are the tokens of the pieces and the margin where they end. -/
def gather (margin : Margin) : List Piece → List Token × Margin
  | [] => ([], margin)
  | piece :: ahead =>
    let next := margin.advance piece ahead
    let others := next.2.gather ahead
    (next.1.tokens ++ others.1, others.2)

/-- The arranged tokens are those of the pieces and then those of the end. -/
theorem arrange_tokens (margin : Margin) (pieces : List Piece) :
    (margin.arrange pieces).tokens =
      (margin.gather pieces).1 ++ (margin.gather pieces).2.finish := by
  induction pieces generalizing margin with
  | nil => rfl
  | cons piece ahead inductionHypothesis =>
      change (margin.advance piece ahead).1.tokens ++
        ((margin.advance piece ahead).2.arrange ahead).tokens = _
      rw [inductionHypothesis, gather, List.append_assoc]

/-- The tokens of all pieces lead to the margin where they end. -/
theorem reaches_gather (margin : Margin) (pieces : List Piece)
    (written : ∀ piece ∈ pieces, piece.IsWritten) :
    Reaches margin (margin.gather pieces).1 (margin.gather pieces).2 := by
  induction pieces generalizing margin with
  | nil => exact Reaches.refl rfl rfl
  | cons piece ahead inductionHypothesis =>
      have first := reaches_advance margin piece ahead (written piece List.mem_cons_self)
      exact first.trans (inductionHypothesis _ fun other member =>
        written other (List.mem_cons_of_mem _ member))

/-- The line break that the end of the text adds, if the last line needs one. -/
def lastBreak (margin : Margin) : List Token :=
  match margin.last with
  | none => []
  | some kind => if kind.endsLine then [] else [.layout .newline margin.line]

/-- The end of the text closes every open block. -/
def closing (margin : Margin) : List Token :=
  List.replicate margin.depth (.layout .dedent margin.line) ++ [.layout .eof margin.line]

/-- The end adds a line break if one is needed and then closes the blocks. -/
theorem finish_eq (margin : Margin) : margin.finish = margin.lastBreak ++ margin.closing := by
  unfold finish
  rw [List.append_assoc]
  rfl

/-- The closing tokens are dedents and the end. -/
theorem closing_kinds (margin : Margin) :
    ∀ token ∈ margin.closing, token.kind = .dedent ∨ token.kind = .eof := by
  intro token member
  obtain member | member := List.mem_append.1 member
  · rw [List.eq_of_mem_replicate member]
    exact Or.inl rfl
  · rw [List.mem_singleton.1 member]
    exact Or.inr rfl

/-- The closing tokens close every open block. -/
theorem balanced_closing (margin : Margin) : Balanced margin.depth margin.closing := by
  unfold closing
  have ended : Balanced 0 [.layout .eof margin.line] := (balanced_flat rfl).2 rfl
  have closed := (balanced_dedents margin.depth margin.line).2 ended
  rwa [Nat.zero_add] at closed

/-- The closing tokens may stand wherever a line may start. -/
theorem laid_closing (margin : Margin) {previous : Option Kind} (start : StartsLine previous) :
    Laid previous margin.closing := by
  refine laid_marks start ?_ ⟨⟨fun same => (by cases same), fun mark => (by cases mark)⟩, trivial⟩
  intro token member
  rw [List.eq_of_mem_replicate member]
  rfl

/-- The end of the text adds a line break exactly where the last line has not ended. -/
theorem lastBreak_cases (margin : Margin) :
    (margin.lastBreak = [] ∧ ∀ kind ∈ margin.last, kind.endsLine = true) ∨
      ∃ before, margin.last = some before ∧ before.endsLine = false ∧
        margin.lastBreak = [.layout .newline margin.line] := by
  unfold lastBreak
  cases margin.last with
  | none => exact Or.inl ⟨rfl, fun kind same => by cases same⟩
  | some before =>
      cases ends : before.endsLine with
      | true =>
          refine Or.inl ⟨by simp [ends], fun kind same => ?_⟩
          obtain rfl := Option.mem_some_iff.1 same
          exact ends
      | false => exact Or.inr ⟨before, rfl, ends, by simp [ends]⟩

/-- Behind the last break the line has ended. -/
theorem lastBreak_endsLine (margin : Margin) :
    ∀ kind ∈ lastKind margin.last margin.lastBreak, kind.endsLine = true := by
  intro kind same
  obtain ⟨none, ended⟩ | ⟨before, present, unended, break_⟩ := margin.lastBreak_cases
  · rw [none] at same
    exact ended kind same
  · rw [break_] at same
    obtain rfl := Option.mem_some_iff.1 same
    rfl

/-- What the end adds closes every open block. -/
theorem balanced_finish (margin : Margin) : Balanced margin.depth margin.finish := by
  rw [finish_eq]
  obtain ⟨none, ended⟩ | ⟨before, present, unended, break_⟩ := margin.lastBreak_cases
  · rw [none]
    exact balanced_closing margin
  · rw [break_]
    exact (balanced_flat rfl).2 (balanced_closing margin)

/-- What the end adds fits behind the text. -/
theorem laid_finish (margin : Margin) : Laid margin.last margin.finish := by
  rw [finish_eq]
  obtain ⟨none, ended⟩ | ⟨before, present, unended, break_⟩ := margin.lastBreak_cases
  · rw [none]
    exact laid_closing margin fun kind same => Or.inl (ended kind same)
  · rw [break_]
    refine ⟨⟨fun _ => ?_, fun mark => by cases mark⟩, ?_⟩
    · exact ⟨before, present, unended, fun _ => closing_kinds margin⟩
    · refine laid_closing margin fun kind same => ?_
      obtain rfl := Option.mem_some_iff.1 same
      exact Or.inl rfl

/-- This is the margin at the end of a text. -/
def atEnd (pieces : List Piece) : Margin := ((start.measure pieces).2.gather pieces).2

end Margin

/-- These are the tokens of a text before what its end adds. -/
def gathered (pieces : List Piece) : List Token :=
  (Margin.start.measure pieces).1.tokens ++ ((Margin.start.measure pieces).2.gather pieces).1

/-- The tokens of a text lead from the start to the margin at its end. -/
theorem reaches_gathered (pieces : List Piece) (written : ∀ piece ∈ pieces, piece.IsWritten) :
    Margin.Reaches .start (gathered pieces) (.atEnd pieces) := by
  have start : StartsLine Margin.start.last := fun kind same => by cases same
  exact (Margin.reaches_measure _ pieces start).trans (Margin.reaches_gather _ pieces written)

/-- The tokens of a text are those of its pieces and then those of its end. -/
theorem scanPieces_tokens (pieces : List Piece) :
    (scanPieces pieces).tokens = gathered pieces ++ (Margin.atEnd pieces).finish := by
  change (Margin.start.measure pieces).1.tokens ++
    ((Margin.start.measure pieces).2.arrange pieces).tokens = _
  rw [Margin.arrange_tokens, ← List.append_assoc]
  rfl

/-- This many blocks are open where a text ends. -/
def openBlocks (source : String) : Nat := (Margin.atEnd (Piece.split source.toList)).depth

/-- The tokens of a text close exactly the blocks that they open. -/
theorem scan_balanced (source : String) : Balanced 0 (scan source).tokens := by
  have reached := reaches_gathered _ (Piece.split_written source.toList)
  unfold scan
  rw [scanPieces_tokens]
  exact (reached.balance _).2 (Margin.balanced_finish _)

/-- Every token of a text fits where it stands. -/
theorem scan_laid (source : String) : Laid none (scan source).tokens := by
  have reached := reaches_gathered _ (Piece.split_written source.toList)
  unfold scan
  rw [scanPieces_tokens]
  exact reached.laid _ (Margin.laid_finish _)

/-- The closing dedents stand after a line that has ended. -/
theorem scan_closing (source : String) :
    ∃ body line, (scan source).tokens =
        body ++ List.replicate (openBlocks source) (.layout .dedent line) ++ [.layout .eof line] ∧
      (∀ token ∈ body, token.kind ≠ .eof) ∧ ∀ kind ∈ lastKind none body, kind.endsLine = true := by
  have reached := reaches_gathered _ (Piece.split_written source.toList)
  let margin := Margin.atEnd (Piece.split source.toList)
  refine ⟨gathered (Piece.split source.toList) ++ margin.lastBreak, margin.line, ?_, ?_, ?_⟩
  · unfold scan
    rw [scanPieces_tokens, Margin.finish_eq]
    simp only [List.append_assoc]
    rfl
  · intro token member
    obtain member | member := List.mem_append.1 member
    · exact reached.goesOn token member
    · obtain ⟨none, ended⟩ | ⟨before, present, unended, break_⟩ := margin.lastBreak_cases
      · rw [none] at member
        cases member
      · rw [break_] at member
        rw [List.mem_singleton.1 member]
        exact fun eof => by cases eof
  · rw [lastKind_append]
    have last : margin.last = lastKind none (gathered (Piece.split source.toList)) := reached.last
    rw [← last]
    exact margin.lastBreak_endsLine

/-- The layout of a token list whose end closes the given number of blocks. -/
structure WellLaid (tokens : List Token) (openAtEnd : Nat) : Prop where
  end_ : ∃ body last, tokens = body ++ [last] ∧ last.kind = .eof ∧ ∀ token ∈ body, token.kind ≠ .eof
  prefixes : ∀ before after, tokens = before ++ after →
    Token.closings before ≤ Token.openings before
  whole : Token.openings tokens = Token.closings tokens
  newlines : ∀ before token after, tokens = before ++ token :: after → token.kind = .newline →
    ∃ previous, before.getLast? = some previous ∧ previous.kind.endsLine = false ∧
      (previous.kind.continuesLine = true →
        ∀ later ∈ after, later.kind = .dedent ∨ later.kind = .eof)
  blockMarks : ∀ before token after, tokens = before ++ token :: after →
    token.kind = .indent ∨ token.kind = .dedent → ∀ previous, before.getLast? = some previous →
      previous.kind.endsLine = true ∨ previous.kind.continuesLine = true
  closing : ∃ body dedents last, tokens = body ++ dedents ++ [last] ∧
    dedents.length = openAtEnd ∧ (∀ token ∈ dedents, token.kind = .dedent) ∧
    ∀ previous, body.getLast? = some previous → previous.kind.endsLine = true

/-- The last kind is that of the last token. -/
theorem lastKind_eq_some {before : List Token} {kind : Kind} :
    lastKind none before = some kind ↔
      ∃ previous, before.getLast? = some previous ∧ previous.kind = kind := by
  unfold lastKind
  rw [Option.or_none, Option.map_eq_some_iff]

/-- Every text gives a well laid out list of tokens. -/
theorem scan_wellLaid (source : String) : WellLaid (scan source).tokens (openBlocks source) := by
  obtain ⟨body, line, tokens, goesOn, ended⟩ := scan_closing source
  have balanced := scan_balanced source
  have laid := scan_laid source
  refine ⟨?_, ?_, ?_, ?_, ?_, ?_⟩
  · refine ⟨_, _, tokens, rfl, ?_⟩
    intro token member
    obtain member | member := List.mem_append.1 member
    · exact goesOn token member
    · rw [List.eq_of_mem_replicate member]
      exact fun eof => by cases eof
  · intro before after split
    rw [split] at balanced
    obtain ⟨inner, -, same⟩ := balanced.drop
    omega
  · exact balanced.count
  · intro before token after split newline
    rw [split] at laid
    obtain ⟨kind, last, unended, continues⟩ := laid.fits.newline newline
    obtain ⟨previous, present, rfl⟩ := lastKind_eq_some.1 last
    exact ⟨previous, present, unended, continues⟩
  · intro before token after split mark previous present
    rw [split] at laid
    have isMark : token.kind.isBlockMark = true := by
      obtain mark | mark := mark <;> rw [mark] <;> rfl
    exact laid.fits.blockMark isMark _ (lastKind_eq_some.2 ⟨previous, present, rfl⟩)
  · refine ⟨body, _, _, tokens, List.length_replicate, ?_, ?_⟩
    · intro token member
      rw [List.eq_of_mem_replicate member]
      rfl
    · intro previous present
      exact ended _ (lastKind_eq_some.2 ⟨previous, present, rfl⟩)

end Offside
