/-
This file proves that a text after a line break is read as it would be alone, on later lines.
-/

import Offside.Session
import Offside.Proofs.Seam.Layout
import Offside.Proofs.Statement.Complete
import Offside.Proofs.Statement.Retold
import Offside.Proofs.Statement.Sequel

namespace Offside

open Cursor Grammar

/-- A script is read when neither its characters nor its tokens have errors. -/
theorem readScript_eq_ok_iff {source : String} {trees : List Statement} :
    readScript source = .ok trees ↔ (scan source).errors = [] ∧
      (Program.ofTokens (scan source).tokens).errors = [] ∧
      (Program.ofTokens (scan source).tokens).statements = trees := by
  unfold readScript
  simp only [Bool.not_eq_true', List.isEmpty_eq_false_iff]
  by_cases lexical : (scan source).errors = []
  · by_cases syntactic : (Program.ofTokens (scan source).tokens).errors = []
    · simp [lexical, syntactic]
    · simp [lexical, syntactic]
  · simp [lexical]

/-- The statements of a script that is read are derived from its tokens. -/
theorem sequence_of_readScript {source : String} {trees : List Statement}
    (read : readScript source = .ok trees) :
    (scan source).errors = [] ∧ Sequence (script (scan source).tokens) trees [] := by
  obtain ⟨lexical, errors, rfl⟩ := readScript_eq_ok_iff.1 read
  refine ⟨lexical, ?_⟩
  obtain ⟨listed, sequence⟩ := Parser.program_ensures (scan source).tokens
  have within := (ofTokens_within (scan source).tokens).later listed.advances
  have derivation := sequence errors
  rwa [within.rest_eq_nil listed.kind_eq_eof] at derivation

/-- Tokens that derive statements are a program of these statements. -/
theorem program_of_sequence {tokens : List Token} {trees : List Statement}
    (derivation : Sequence (script tokens) trees []) :
    (Program.ofTokens tokens).errors = [] ∧ (Program.ofTokens tokens).statements = trees := by
  rw [← ofTokens_rest] at derivation
  obtain ⟨same, -, errors⟩ := Parser.statements_accept (Parser.statementWithin_accepts _ 0)
    derivation (Nat.le_refl _) (Nat.le_refl _) (.inl rfl)
  exact ⟨errors, same⟩

/-- A script without errors that derives a sequence is read as that sequence. -/
theorem readScript_of_sequence {source : String} {trees : List Statement}
    (lexical : (scan source).errors = [])
    (derivation : Sequence (script (scan source).tokens) trees []) :
    readScript source = .ok trees :=
  readScript_eq_ok_iff.2 ⟨lexical, program_of_sequence derivation⟩

/-- No list of statements starts with an `else`. -/
theorem Grammar.Sequence.head_ne_else {tokens : List Token} {trees : List Statement}
    (derivation : Sequence tokens trees []) : headKind tokens ≠ .keyword .else_ := by
  cases derivation with
  | nil => decide
  | cons first others =>
      obtain ⟨token, rest, rfl, starts⟩ := first.starts
      intro same
      have kind : token.kind = .keyword .else_ := same
      rw [kind] at starts
      cases starts

/-- The last kind belongs to a last token. -/
theorem exists_last_of_lastKind {tokens : List Token} {kind : Kind}
    (last : lastKind none tokens = some kind) :
    ∃ front token, tokens = front ++ [token] ∧ token.kind = kind := by
  obtain ⟨token, present, same⟩ := lastKind_eq_some.1 last
  obtain ⟨front, rfl⟩ := List.getLast?_eq_some_iff.1 present
  exact ⟨front, token, rfl, same⟩

/-- A text that is read and ends with a line break has ended its last line: no statement goes on
after the keyword that would keep the line open. -/
theorem ended_of_sequence {pieces : List Piece} {trees : List Statement}
    (written : ∀ piece ∈ pieces, piece.IsWritten)
    (ends : ∀ last ∈ pieces.getLast?, last = Piece.lineBreak)
    (derivation : Sequence (script (scanPieces pieces).tokens) trees []) :
    (Margin.atEnd pieces).Ended := by
  obtain ⟨-, ended⟩ | ⟨kind, last, unended, break_⟩ := (Margin.atEnd pieces).lastBreak_cases
  · exact ended
  have reached := reaches_gathered pieces written
  have continues : kind.continuesLine = true := by
    have starts := startsLine_atEnd ends kind last
    rw [unended] at starts
    simpa using starts
  obtain ⟨front, token, tokens, same⟩ := exists_last_of_lastKind (reached.last.symm.trans last)
  have continuous := derivation.continuous List.isChain_nil
  rw [scanPieces_tokens, Margin.finish_eq, break_, script_append reached.goesOn, tokens,
    List.append_assoc] at continuous
  have newline := (List.isChain_cons.1 continuous.right_of_append).1 _ rfl
  exact absurd rfl (newline (same ▸ continues))

/-- The dedents of open blocks may stand on any line. -/
theorem retold_dedents {tokens : List Token} (count line other : Nat) :
    AllRetold id (tokens ++ List.replicate count (.layout .dedent line))
      (tokens ++ List.replicate count (.layout .dedent other)) := by
  refine List.rel_append ?_ ?_
  · exact List.forall₂_same.2 fun token _ => ⟨rfl, rfl, rfl, fun _ => rfl⟩
  · induction count with
    | zero => exact .nil
    | succ count inductionHypothesis =>
        exact .cons ⟨rfl, rfl, rfl, fun differs => absurd rfl differs⟩ inductionHypothesis

def Token.reline (line : Nat → Nat) (token : Token) : Token := { token with line := line token.line }

/-- Tokens with other lines are the same tokens retold. -/
theorem retold_reline (line : Nat → Nat) (tokens : List Token) :
    AllRetold line tokens (tokens.map (Token.reline line)) := by
  induction tokens with
  | nil => exact .nil
  | cons token rest inductionHypothesis =>
      exact .cons ⟨rfl, rfl, rfl, fun _ => rfl⟩ inductionHypothesis

theorem script_reline (line : Nat → Nat) (tokens : List Token) :
    script (tokens.map (Token.reline line)) = (script tokens).map (Token.reline line) :=
  List.takeWhile_map

/-- Tokens on later lines are the same tokens retold. -/
theorem retold_shift (amount : Nat) (tokens : List Token) :
    AllRetold (· + amount) tokens (tokens.map (Token.shift amount)) :=
  retold_reline (· + amount) tokens

theorem script_shift (amount : Nat) (tokens : List Token) :
    script (tokens.map (Token.shift amount)) = (script tokens).map (Token.shift amount) :=
  script_reline (· + amount) tokens

section Joined

variable {before later : List Piece} {trees others : List Statement}

/-- The script goes on after dedents. -/
theorem dedents_goOn (count line : Nat) :
    ∀ token ∈ List.replicate count (Token.layout .dedent line), token.kind ≠ .eof := by
  intro token member
  rw [List.eq_of_mem_replicate member]
  exact fun same => by cases same

/-- The script of a text that has ended its last line is what it holds, with the dedents. -/
theorem script_closing (written : ∀ piece ∈ before, piece.IsWritten)
    (ended : (Margin.atEnd before).Ended) :
    script (scanPieces before).tokens = gathered before ++
      List.replicate (Margin.atEnd before).depth (.layout .dedent (Margin.atEnd before).line) := by
  have reached := reaches_gathered before written
  rw [scanPieces_closing ended, script_append reached.goesOn, Margin.closing,
    script_append (dedents_goOn _ _)]
  exact congrArg (gathered before ++ ·) (List.append_nil _)

/-- Before a later text, the dedents stand on its lines, and the statements are the same. -/
theorem sequence_before (written : ∀ piece ∈ before, piece.IsWritten)
    (ended : (Margin.atEnd before).Ended)
    (derivation : Sequence (script (scanPieces before).tokens) trees []) {rest : List Token}
    (bare : headKind rest ≠ .keyword .else_) (line : Nat) :
    Sequence
      (gathered before ++
        List.replicate (Margin.atEnd before).depth (.layout .dedent line) ++ rest)
      trees rest := by
  rw [script_closing written ended] at derivation
  have balanced : Balanced 0 (gathered before ++
      List.replicate (Margin.atEnd before).depth (.layout .dedent line)) := by
    refine ((reaches_gathered before written).balance _).2 ?_
    have none : Balanced 0 [] := rfl
    have closed := (balanced_dedents (Margin.atEnd before).depth line).2 none
    rwa [List.append_nil, Nat.zero_add] at closed
  obtain ⟨after, none, retold⟩ := derivation.retold _ (retold_dedents _ _ line)
  cases none
  rw [Statement.relineAll_id] at retold
  exact (retold.sequel bare 0 balanced).2

/-- A sequence on later lines derives the same statements on later lines. -/
theorem sequence_later (amount : Nat) {tokens : List Token}
    (derivation : Sequence tokens others []) :
    Sequence (tokens.map (Token.shift amount)) (others.map (Statement.reline (· + amount))) [] := by
  obtain ⟨after, none, retold⟩ := derivation.retold _ (retold_shift amount tokens)
  cases none
  rwa [Statement.relineAll_eq_map] at retold

end Joined

/-- A script that is read leaves no string open. -/
theorem closed_of_scan {source : String} (errors : (scan source).errors = []) (body : List Char) :
    Piece.unclosed body ∉ Piece.split source.toList :=
  Margin.closed_of_arrange (List.append_eq_nil_iff.1 errors).2 body

/-- The first kind differs exactly when no first token has it. -/
theorem headKind_ne_iff {tokens : List Token} {kind : Kind} (goesOn : kind ≠ .eof) :
    headKind tokens ≠ kind ↔ ∀ token ∈ tokens.head?, token.kind ≠ kind := by
  cases tokens with
  | nil => simp [headKind, goesOn.symm]
  | cons token rest => simp [headKind]

/-- The script of two texts in one is what the first holds, the dedents of its open blocks and the
script of the second on later lines. -/
theorem scan_joined {first second : String} (clean : (scan first).errors = [])
    (ends : Piece.EndsScript first.toList)
    (ended : (Margin.atEnd (Piece.split first.toList)).Ended) (errors : (scan second).errors = [])
    (paired : Piece.Paired second.toList) (flush : headKind (scan second).tokens ≠ .indent) :
    (scan (first ++ second)).errors = [] ∧ ∃ line,
      script (scan (first ++ second)).tokens = gathered (Piece.split first.toList) ++
        List.replicate (openBlocks first) (.layout .dedent line) ++
          (script (scan second).tokens).map (Token.shift (first.toList.count '\n')) := by
  let before := Piece.split first.toList
  let later := Piece.split second.toList
  have written : ∀ piece ∈ before, piece.IsWritten := Piece.split_written first.toList
  have closed := closed_of_scan clean
  have last := Piece.getLast?_split ends closed
  have opens : (scanPieces later).Opens := ⟨errors, (headKind_ne_iff (by decide)).1 flush⟩
  obtain ⟨line, joined⟩ := scanPieces_joined last clean ended (Piece.split_tidy paired) opens
  have whole : scan (first ++ second) = scanPieces (before ++ later) := by
    unfold scan
    rw [String.toList_append, Piece.split_append ends.line closed]
  rw [joined, Piece.split_text] at whole
  refine ⟨by rw [whole]; rfl, line, ?_⟩
  rw [whole]
  change script (gathered before ++ _) = _
  rw [script_append (reaches_gathered before written).goesOn, script_append (dedents_goOn _ _),
    script_shift, List.append_assoc]
  rfl

/-- Two texts that are read are read as one, if the first ends with a line break and the second
starts without an indent: the statements of the second come after those of the first, on later
lines. -/
theorem readScript_append {first second : String} {trees others : List Statement}
    (one : readScript first = .ok trees) (two : readScript second = .ok others)
    (ends : Piece.EndsScript first.toList) (paired : Piece.Paired second.toList)
    (flush : headKind (scan second).tokens ≠ .indent) :
    readScript (first ++ second) = .ok (trees ++
      others.map (Statement.reline (· + first.toList.count '\n'))) := by
  obtain ⟨firstErrors, firstDerivation⟩ := sequence_of_readScript one
  obtain ⟨secondErrors, secondDerivation⟩ := sequence_of_readScript two
  have written := Piece.split_written first.toList
  have last := Piece.getLast?_split ends (closed_of_scan firstErrors)
  have ended := ended_of_sequence written last firstDerivation
  obtain ⟨errors, line, tokens⟩ := scan_joined firstErrors ends ended secondErrors paired flush
  have tail := sequence_later (first.toList.count '\n') secondDerivation
  apply readScript_of_sequence errors
  rw [tokens]
  exact (sequence_before written ended firstDerivation tail.head_ne_else line).append tail

end Offside
