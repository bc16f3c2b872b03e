/-
This file proves that every report names a line of its text, and that no report is lost.
-/

import Offside.Proofs.Report.Places
import Offside.Proofs.Seam.Recovery
import Offside.Proofs.Seam.Session
import Offside.Proofs.Statement.Total

namespace Offside

open Cursor Grammar

/-- The text has a line of this number. -/
def HasLine (source : String) (line : Nat) : Prop :=
  1 ≤ line ∧ line ≤ 1 + source.toList.count '\n'

/-- Some token of the text stands on this line. -/
def HasTokenOn (source : String) (line : Nat) : Prop :=
  ∃ token ∈ (scan source).tokens, token.line = line

/-- Some token that does not come from the layout stands on this line. -/
def HasWordOn (source : String) (line : Nat) : Prop :=
  ∃ token ∈ (scan source).tokens, token.kind.isLayout = false ∧ token.line = line

instance (source : String) (line : Nat) : Decidable (HasWordOn source line) :=
  inferInstanceAs (Decidable (∃ token ∈ (scan source).tokens, _))

/-- A line with a word on it has a token on it. -/
theorem HasWordOn.hasTokenOn {source : String} {line : Nat} (word : HasWordOn source line) :
    HasTokenOn source line := by
  obtain ⟨token, member, -, same⟩ := word
  exact ⟨token, member, same⟩

section Scanning

namespace Margin

/-- An indentation is blamed on the line of its margin. -/
theorem measure_errorLines (margin : Margin) (ahead : List Piece) :
    ∀ error ∈ (margin.measure ahead).1.errors, error.line = margin.line := by
  intro error member
  unfold measure at member
  dsimp only at member
  split at member
  · cases member
  split at member
  · rw [List.mem_singleton.1 member]
  · cases member

/-- The errors of a piece stand on the lines from its first to its last. -/
theorem advance_errorLines (margin : Margin) (piece : Piece) (ahead : List Piece) :
    ∀ error ∈ (margin.advance piece ahead).1.errors,
      margin.line ≤ error.line ∧ error.line ≤ (margin.advance piece ahead).2.line := by
  intro error member
  rw [advance_line]
  cases piece with
  | blank | comment | joint | lexeme => cases member
  | stray | unclosed =>
      rw [List.mem_singleton.1 member]
      simp [lineAfter]
  | lineBreak =>
      have measured := measure_errorLines margin.broken ahead error member
      rw [measured]
      simp [broken, after, lineAfter, Piece.text]

/-- The errors of the pieces stand between the two margins. -/
theorem arrange_errorLines (margin : Margin) (pieces : List Piece) :
    ∀ error ∈ (margin.arrange pieces).errors,
      margin.line ≤ error.line ∧ error.line ≤ (margin.gather pieces).2.line := by
  induction pieces generalizing margin with
  | nil => exact fun error member => absurd member List.not_mem_nil
  | cons piece ahead inductionHypothesis =>
      have step := advance_errorLines margin piece ahead
      have further := inductionHypothesis (margin.advance piece ahead).2
      have forward := advance_line margin piece ahead
      have onward := gather_line (margin.advance piece ahead).2 ahead
      unfold lineAfter at forward onward
      intro error member
      change _ ∧ error.line ≤ ((margin.advance piece ahead).2.gather ahead).2.line
      obtain member | member := List.mem_append.1 member
      · have := step error member
        omega
      · have := further error member
        omega

end Margin

open Margin

variable (source : String)

/-- The end of a text is on its last line. -/
theorem atEnd_line :
    (atEnd (Piece.split source.toList)).line = 1 + source.toList.count '\n' := by
  rw [atEnd, gather_line, lineAfter, measure_line, Piece.split_text]
  rfl

/-- Every token of a text stands on one of its lines. -/
theorem scan_tokenLines : ∀ token ∈ (scan source).tokens, HasLine source token.line := by
  intro token member
  have written := Piece.split_written source.toList
  have first := measure_line start (Piece.split source.toList)
  have last := atEnd_line source
  have start : start.line = 1 := rfl
  unfold HasLine
  rw [scan, scanPieces_tokens] at member
  obtain member | member := List.mem_append.1 member
  · obtain member | member := List.mem_append.1 member
    · have := (measure_places _ _ token member).1
      omega
    · obtain ⟨after, before, -⟩ := gather_places _ written token member
      rw [atEnd] at last
      omega
  · have := ((finish_places _).1 token member).2.2
    omega

/-- Every error of a text stands on one of its lines. -/
theorem scan_errorLines : ∀ error ∈ (scan source).errors, HasLine source error.line := by
  intro error member
  have first := measure_line start (Piece.split source.toList)
  have last := atEnd_line source
  have start : start.line = 1 := rfl
  unfold HasLine
  obtain member | member := List.mem_append.1 member
  · have := measure_errorLines _ _ error member
    omega
  · have := arrange_errorLines _ _ error member
    rw [atEnd] at last
    omega

/-- A line with a token on it is a line of the text. -/
theorem HasTokenOn.hasLine {source : String} {line : Nat} (present : HasTokenOn source line) :
    HasLine source line := by
  obtain ⟨token, member, rfl⟩ := present
  exact scan_tokenLines source token member

end Scanning

section Parsing

namespace Cursor

/-- Every error so far blames a place on the way. -/
def Blaming (start cursor : Cursor) : Prop :=
  ∀ error ∈ cursor.errors, ∃ place mistake, Advances start place ∧ mistake.Fits place.kind ∧
    error = place.error mistake

/-- A cursor with the same errors blames the same places. -/
theorem Blaming.of_errors {start cursor after : Cursor} (blaming : Blaming start cursor)
    (same : after.errors = cursor.errors) : Blaming start after := by
  unfold Blaming
  rw [same]
  exact blaming

mutual

/-- A cursor that moves on at one depth blames places on the way only. -/
theorem Goes.blaming {depth : Nat} {start cursor after : Cursor} :
    Goes depth cursor after → Advances start cursor → Blaming start cursor → Blaming start after
  | .flat walks => fun _ blaming => blaming.of_errors walks.errors
  | .parameter _ => fun _ blaming =>
      blaming.of_errors ((next_errors _).trans (next_errors _))
  | .block _ inside => fun advances blaming => by
      have inner := inside.blaming (advances.trans (next_advances _))
        (blaming.of_errors (next_errors _))
      split
      · exact inner.of_errors (next_errors _)
      · exact inner
  | .trans start further => fun advances blaming =>
      further.blaming (advances.trans start.advances) (start.blaming advances blaming)

/-- A list of statements blames places on the way only. -/
theorem Lists.blaming {depth : Nat} {start cursor last : Cursor} :
    Lists depth cursor last → Advances start cursor → Blaming start cursor → Blaming start last
  | .stop _ => fun _ blaming => blaming
  | .statement _ goes _ others => fun advances blaming => by
      have marked := advances.trans (mark_advances _ depth)
      exact others.blaming (marked.trans goes.advances) (goes.blaming marked blaming)
  | .mistake _ goes turns slips others => fun advances blaming => by
      have marked := advances.trans (mark_advances _ depth)
      have moved := marked.trans goes.advances
      apply others.blaming ((moved.trans (note_advances _ _)).trans (recover_advances _ _))
      intro error member
      rw [recover_errors] at member
      obtain member | member := List.mem_append.1 member
      · exact goes.blaming marked blaming error member
      · have before := turns.advances.trans slips.before.toAdvances
        exact ⟨_, _, marked.trans before, slips.fits, List.mem_singleton.1 member⟩

end

end Cursor

/-- A scan has its own end. -/
theorem closed_scan (source : String) : closed (scan source).tokens = (scan source).tokens := by
  obtain ⟨last, ends, tokens⟩ := scan_script source
  have final : (scan source).tokens.getLast? = some last := by
    rw [tokens]
    simp
  simp [closed, final, isEnd, ends]

/-- The mistakes of a program blame places in its tokens. -/
theorem program_blaming (tokens : List Token) :
    Blaming (.ofTokens tokens) (Parser.program tokens).2 :=
  (Parser.program_ensures tokens).1.blaming (.refl _) fun _ absent =>
    absurd absent List.not_mem_nil

/-- A syntax error stands on the line of a token, perhaps of the end. -/
theorem program_errorLines (source : String) :
    ∀ error ∈ (Program.ofTokens (scan source).tokens).errors, HasTokenOn source error.line := by
  intro error member
  obtain ⟨place, mistake, advances, -, rfl⟩ := program_blaming _ error member
  obtain ⟨token, found, -, line, -⟩ := advances.stands.here
  rw [closed_scan] at found
  exact ⟨token, List.mem_of_getElem? found, line⟩

/-- The trees of a text have the lines of its words only. -/
theorem relineAll_of_readScript {source : String} {trees : List Statement} {line : Nat → Nat}
    (read : readScript source = .ok trees)
    (fixed : ∀ token ∈ (scan source).tokens, token.kind.isLayout = false →
      line token.line = token.line) : Statement.relineAll line trees = trees := by
  let others := (scan source).tokens.map (Token.reline line)
  obtain ⟨-, derivation⟩ := sequence_of_readScript read
  obtain ⟨-, errors, statements⟩ := readScript_eq_ok_iff.1 read
  have matches_ : (ofTokens (scan source).tokens).Matches [] (ofTokens others) := by
    refine ⟨⟨_, (List.append_nil _).symm, ?_⟩, rfl, rfl⟩
    rw [ofTokens_rest, ofTokens_rest, script_reline, List.forall₂_map_right_iff,
      List.forall₂_same]
    intro token member
    exact ⟨rfl, rfl, rfl, fixed token ((script_initial _).subset member)⟩
  -- The parser cannot tell the two lists apart, and the second one has the lines of `line`.
  have same := (program_joined source matches_ .nil (by simp [errors])).1
  obtain ⟨rest, last, moved⟩ := derivation.retold _ (retold_reline line _)
  cases last
  rw [← script_reline] at moved
  rw [(program_of_sequence moved).2, statements, List.append_nil] at same
  exact same

end Parsing

namespace Machine

/-- A runtime error stands on the line of a word, however the word came to be run. -/
theorem Recounts.errorLines {source : String} {clock : Clock} {echoes : Bool}
    {trees : List Statement} {errors : List RuntimeError} {events : List Event} {after : Machine}
    (read : readScript source = .ok trees)
    (recounts : (start clock echoes).Recounts trees errors events after) :
    ∀ error ∈ errors, HasWordOn source error.line := by
  intro error member
  -- Only lines without a word are changed, and the line of the error is not.
  let line (place : Nat) : Nat := if HasWordOn source place then place else place + 1
  have fixed : ∀ token ∈ (scan source).tokens, token.kind.isLayout = false →
      line token.line = token.line := fun token present word =>
    if_pos ⟨token, present, word, rfl⟩
  have kept := recounts.kept (start_kept line clock echoes) (relineAll_of_readScript read fixed)
    error member
  have same : line error.line = error.line := congrArg RuntimeError.line kept
  by_contra missing
  simp [line, missing] at same

/-- The reports are those of the first phase that fails, and those of the run if none does. -/
inductive Reported (machine : Machine) (source : String) : Completion → Prop
  | lexical : (scan source).errors ≠ [] →
      Reported machine source ⟨.lexicalErrors (scan source).errors.length,
        (scan source).errors.map LexicalError.report, machine⟩
  | syntactic : (scan source).errors = [] → (Program.ofTokens (scan source).tokens).errors ≠ [] →
      Reported machine source ⟨.syntaxErrors (Program.ofTokens (scan source).tokens).errors.length,
        (Program.ofTokens (scan source).tokens).errors.map SyntaxError.report, machine⟩
  | ran {trees : List Statement} {errors : List RuntimeError} {events : List Event}
      {after : Machine} : readScript source = .ok trees →
      machine.Recounts trees errors events after →
      Reported machine source ⟨.completed errors.length, errors.map RuntimeError.report, after⟩

/-- A script that completes reports the errors of one phase. -/
theorem Completes.reported {machine : Machine} {source : String} {done : Completion}
    (completes : machine.Completes source done) : machine.Reported source done := by
  let program := Program.ofTokens (scan source).tokens
  by_cases lexical : (scan source).errors = []
  · by_cases syntactic : program.errors = []
    · have read : readScript source = .ok _ := readScript_eq_ok_iff.2 ⟨lexical, syntactic, rfl⟩
      obtain ⟨errors, after, interprets, rfl⟩ := (completes_iff read).1 completes
      obtain ⟨events, recounts⟩ := interprets_iff_recounts.1 interprets
      exact .ran read recounts
    · have rejected : readScript source = .error ⟨.syntaxErrors program.errors.length,
          program.errors.map SyntaxError.report⟩ := by
        rw [readScript, lexical, if_neg (by simp), if_pos (by simpa using syntactic)]
      obtain ⟨fuel, ran⟩ := completes
      rw [run, rejected] at ran
      cases ran
      exact .syntactic lexical syntactic
  · have rejected : readScript source = .error ⟨.lexicalErrors (scan source).errors.length,
        (scan source).errors.map LexicalError.report⟩ := by
      rw [readScript, if_pos (by simpa using lexical)]
    obtain ⟨fuel, ran⟩ := completes
    rw [run, rejected] at ran
    cases ran
    exact .lexical lexical

end Machine

/-- This is the number of errors that an outcome tells. -/
def Outcome.count : Outcome → Nat
  | lexicalErrors count | syntaxErrors count | completed count => count

/-- The reports of a script are all there, and each one leads the reader into the text. -/
structure Machine.Diagnosed (machine : Machine) (source : String) (done : Completion) : Prop where
  /-- The reports are all those of one phase. -/
  reported : machine.Reported source done
  /-- The outcome tells how many they are. -/
  count : done.reports.length = done.outcome.count
  inside : ∀ report ∈ done.reports, HasLine source report.line
  syntactic : ∀ count, done.outcome = .syntaxErrors count →
    ∀ report ∈ done.reports, HasTokenOn source report.line
  /-- Every line that fails is one of the text itself, also where a statement stands for others and
  where a function is called long after its declaration. -/
  runtime : ∀ count, done.outcome = .completed count →
    ∀ report ∈ done.reports, HasWordOn source report.line

/-- Every report of a script on a new machine names a line of the script, and none is lost. -/
theorem run_diagnosed (source : String) (clock : Clock) (echoes : Bool) (done : Completion)
    (completes : (Machine.start clock echoes).Completes source done) :
    (Machine.start clock echoes).Diagnosed source done := by
  cases completes.reported with
  | lexical failed =>
      have placed : ∀ report ∈ (scan source).errors.map LexicalError.report,
          HasLine source report.line := List.forall_mem_map.2 (scan_errorLines source)
      exact ⟨.lexical failed, List.length_map _, placed, nofun, nofun⟩
  | syntactic clean failed =>
      have placed : ∀ report ∈
          (Program.ofTokens (scan source).tokens).errors.map SyntaxError.report,
          HasTokenOn source report.line := List.forall_mem_map.2 (program_errorLines source)
      exact ⟨.syntactic clean failed, List.length_map _,
        fun report member => (placed report member).hasLine, fun _ _ => placed, nofun⟩
  | @ran trees errors events after read recounts =>
      have placed : ∀ report ∈ errors.map RuntimeError.report, HasWordOn source report.line :=
        List.forall_mem_map.2 (recounts.errorLines read)
      exact ⟨.ran read recounts, List.length_map _,
        fun report member => (placed report member).hasTokenOn.hasLine, nofun, fun _ _ => placed⟩

/-- A step in a function fails on its own line, not on that of the call. -/
theorem run_diagnosed_step :
    let source := "func f: x =\n    x++\n\nf(nil)\n"
    let machine := Machine.start (.ticking 0) false
    ∃ done, machine.Completes source done ∧ done.outcome = .completed 1 ∧
      done.reports = [⟨2, "Operand types must match."⟩] ∧ machine.Diagnosed source done := by
  intro source machine
  have pieces : Piece.split source.toList =
      [.lexeme (.keyword .func) ['f', 'u', 'n', 'c'], .blank ' ', .lexeme .name ['f'],
        .lexeme (.symbol .colon) [':'], .blank ' ', .lexeme .name ['x'], .blank ' ',
        .lexeme (.symbol .equal) ['='], .lineBreak, .blank ' ', .blank ' ', .blank ' ', .blank ' ',
        .lexeme .name ['x'], .lexeme (.symbol .plusPlus) ['+', '+'], .lineBreak, .lineBreak,
        .lexeme .name ['f'], .lexeme (.symbol .leftParen) ['('],
        .lexeme (.keyword .nil) ['n', 'i', 'l'], .lexeme (.symbol .rightParen) [')'],
        .lineBreak] := by
    change Piece.split "func f: x =\n    x++\n\nf(nil)\n".toList = _
    rw [Piece.split_eq_splitWithin (Nat.le_refl 28)]
    rfl
  have read : readScript source = .ok
      [.func ⟨"f", 1⟩ [⟨"x", 1⟩] [.expression (.stepped .add ⟨.name, "x", some (.string "x"), 2⟩
          ⟨.symbol .plusPlus, "++", none, 2⟩)],
        .expression (.call (.reference ⟨"f", 4⟩) [.constant .nil 4] 4)] := by
    unfold readScript scan
    rw [pieces]
    rfl
  have observed : (machine.run 9 source).map (fun done => (done.outcome, done.reports)) =
      some (.completed 1, [⟨2, "Operand types must match."⟩]) := by
    unfold Machine.run
    rw [read]
    decide +kernel
  obtain ⟨done, ran, same⟩ := Option.map_eq_some_iff.1 observed
  obtain ⟨outcome, reports⟩ := Prod.mk.inj same
  exact ⟨done, ⟨9, ran⟩, outcome, reports, run_diagnosed _ _ _ _ ⟨9, ran⟩⟩

end Offside
