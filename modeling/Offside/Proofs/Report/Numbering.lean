/-
This file proves that every token and every lexical error carries the number of its line: one more
than the line breaks before the place where it arises.
-/

import Offside.Proofs.Report.Diagnostics

namespace Offside

/-- This is the line on which the text goes on after these pieces. -/
def Piece.lineAfter (before : List Piece) : Nat := 1 + (before.flatMap Piece.text).count '\n'

/-- A further piece moves the line on by its line breaks. -/
theorem Piece.lineAfter_concat (before : List Piece) (piece : Piece) :
    lineAfter (before ++ [piece]) = lineAfter before + piece.text.count '\n' := by
  simp [lineAfter, Nat.add_assoc]

/-- The token stands on the line where it arises, where these tokens come before it. -/
structure Token.Numbered (pieces : List Piece) (front : List Token) (token : Token) : Prop where
  /-- A token with characters arises where its lexeme starts. -/
  written : token.kind.isLayout = false → ∃ before text after,
    pieces = before ++ .lexeme token.kind text :: after ∧ token.lexeme = String.ofList text ∧
      spellingsOf front = before.flatMap Piece.spellings ∧ token.line = Piece.lineAfter before
  /-- The end of a statement arises at the first line break after its last lexeme. Where there is
  none, or the lexeme keeps its line open, it arises at the end of the text. -/
  newline : token.kind = .newline → ∃ before kind text after,
    pieces = before ++ .lexeme kind text :: after ∧
      spellingsOf front = (before ++ [.lexeme kind text]).flatMap Piece.spellings ∧
      ((kind.continuesLine = false ∧ ∃ gap rest, after = gap ++ .lineBreak :: rest ∧
          .lineBreak ∉ gap ∧ token.line = Piece.lineAfter (before ++ .lexeme kind text :: gap)) ∨
        ((.lineBreak ∈ after → kind.continuesLine = true) ∧
          token.line = Piece.lineAfter pieces))

/-- The error stands on the line where it arises, where these errors come before it. -/
structure LexicalError.Numbered (pieces : List Piece) (front : List LexicalError)
    (error : LexicalError) : Prop where
  unrecognized : ∀ c, error.flaw = .unrecognized c → ∃ before after,
    pieces = before ++ .stray c :: after ∧ flawsOf front = before.flatMap Piece.flaws ∧
      error.line = Piece.lineAfter before
  unclosed : error.flaw = .unclosedString → error.line = Piece.lineAfter pieces

/-- The text does not say where a block mark or the end arises. -/
theorem Token.Numbered.of_layout {pieces : List Piece} {front : List Token} {token : Token}
    (layout : token.kind.isLayout = true) (other : token.kind ≠ .newline) :
    token.Numbered pieces front where
  written plain := by
    rw [layout] at plain
    cases plain
  newline same := absurd same other

/-- A block mark is numbered wherever it stands. -/
theorem Token.Numbered.of_mark {pieces : List Piece} {front : List Token} {token : Token}
    (mark : token.kind.isBlockMark = true) : token.Numbered pieces front := by
  apply Token.Numbered.of_layout (Kind.isLayout_of_isBlockMark mark)
  intro same
  rw [same] at mark
  cases mark

/-- An indentation error is numbered wherever it stands. -/
theorem LexicalError.Numbered.of_measure {pieces : List Piece} {front : List LexicalError}
    {error : LexicalError} (margin : Margin) (ahead : List Piece)
    (member : error ∈ (margin.measure ahead).1.errors) : error.Numbered pieces front := by
  have misaligned : error.flaw = .misalignedIndent := by
    have laid := margin.flawsOf_measure ahead
    simp only [flawsOf, List.filter_eq_nil_iff, List.forall_mem_map] at laid
    simpa using laid error member
  constructor
  · intro c same
    rw [misaligned] at same
    cases same
  · intro same
    rw [misaligned] at same
    cases same

theorem eq_of_singleton {α : Type} {x y : α} {front back : List α}
    (single : [x] = front ++ y :: back) : front = [] ∧ y = x := by
  cases front with
  | nil => exact ⟨rfl, (List.cons.inj single).1.symm⟩
  | cons other front => simp at single

namespace Margin

/-- The lines lead from one to the other and never back. -/
structure Ascends (first : Nat) (lines : List Nat) (last : Nat) : Prop where
  forward : first ≤ last
  within : ∀ line ∈ lines, first ≤ line ∧ line ≤ last
  order : lines.Pairwise (· ≤ ·)

/-- Lines that ascend in a row ascend as a whole. -/
theorem Ascends.trans {first middle last : Nat} {lines others : List Nat}
    (start : Ascends first lines middle) (rest : Ascends middle others last) :
    Ascends first (lines ++ others) last where
  forward := Nat.le_trans start.forward rest.forward
  within line member := by
    obtain member | member := List.mem_append.1 member
    · have := start.within line member
      have := rest.forward
      omega
    · have := rest.within line member
      have := start.forward
      omega
  order := by
    refine List.pairwise_append.2 ⟨start.order, rest.order, ?_⟩
    intro line member other later
    exact Nat.le_trans (start.within line member).2 (rest.within other later).1

/-- Lines that are all the same ascend. -/
theorem Ascends.level {lines : List Nat} {line : Nat} (same : ∀ other ∈ lines, other = line) :
    Ascends line lines line where
  forward := Nat.le_refl line
  within other member := by
    rw [same other member]
    exact ⟨Nat.le_refl line, Nat.le_refl line⟩
  order := by
    apply List.pairwise_of_forall_mem_list
    intro first firstMember second secondMember
    rw [same first firstMember, same second secondMember]

theorem Ascends.single (line : Nat) : Ascends line [line] line := .level (by simp)

theorem Ascends.skip {first last : Nat} (forward : first ≤ last) : Ascends first [] last :=
  ⟨forward, fun _ member => absurd member List.not_mem_nil, .nil⟩

/-- The scan so far comes from the first of the pieces, and the margin is where they end. -/
structure Follows (pieces done : List Piece) (scan : Scan) (margin : Margin) : Prop where
  line : margin.line = Piece.lineAfter done
  spelt : spellingsOf scan.tokens = done.flatMap Piece.spellings
  flawed : flawsOf scan.errors = done.flatMap Piece.flaws
  /-- A lexeme whose line has not ended is the last one. -/
  last : ∀ kind ∈ margin.last, kind.endsLine = false → ∃ before text gap,
    done = before ++ .lexeme kind text :: gap ∧ gap.flatMap Piece.spellings = [] ∧
      (.lineBreak ∈ gap → kind.continuesLine = true)
  tokens : ∀ front token back, scan.tokens = front ++ token :: back → token.Numbered pieces front
  errors : ∀ front error back, scan.errors = front ++ error :: back → error.Numbered pieces front
  tokenLines : Ascends 1 (scan.tokens.map Token.line) margin.line
  errorLines : Ascends 1 (scan.errors.map LexicalError.line) margin.line

section Step

variable {pieces done ahead : List Piece} {piece : Piece} {scan : Scan} {margin : Margin}

/-- A line break gives a token only after a lexeme whose line ends there. -/
theorem lineBreak_cases (margin : Margin) :
    margin.lineBreak = [] ∨ ∃ kind ∈ margin.last, kind.endsLine = false ∧
      kind.continuesLine = false ∧ margin.lineBreak = [.layout .newline margin.line] := by
  unfold lineBreak
  cases margin.last with
  | none => exact .inl rfl
  | some kind =>
      cases ends : kind.endsLine <;> cases continues : kind.continuesLine <;>
        simp [ends, continues]

/-- A last kind that ends no line was the last one before tokens that end theirs. -/
theorem last_after {tokens : List Token} {kind : Kind} (member : kind ∈ (margin.after tokens).last)
    (ended : ∀ token ∈ tokens, token.kind.endsLine = true) (unended : kind.endsLine = false) :
    kind ∈ margin.last := by
  unfold after at member
  cases final : tokens.getLast? with
  | none => simpa [final] using member
  | some token =>
      have same : token.kind = kind := by simpa [final] using member
      have marked := ended token (List.mem_of_getLast? final)
      rw [same, unended] at marked
      cases marked

/-- The marks of a line never leave a lexeme last. -/
theorem last_measure {kind : Kind} (member : kind ∈ (margin.measure ahead).2.last)
    (unended : kind.endsLine = false) : kind ∈ margin.last := by
  unfold measure at member
  dsimp only at member
  split at member
  · exact member
  split at member
  · exact member
  · refine last_after member ?_ unended
    intro token mark
    obtain mark | mark := List.mem_append.1 mark
    · rw [List.eq_of_mem_replicate mark]
      rfl
    · rw [List.eq_of_mem_replicate mark]
      rfl

/-- After a line break only a lexeme that keeps its line open still stands last. -/
theorem last_lineBreak {kind : Kind} (member : kind ∈ (margin.advance .lineBreak ahead).2.last)
    (unended : kind.endsLine = false) : kind ∈ margin.last ∧ kind.continuesLine = true := by
  have present : kind ∈ margin.broken.last := last_measure member unended
  obtain ends | continues := (reaches_lineBreak margin
    { margin with line := margin.line + 1 } rfl rfl).2 kind present
  · rw [unended] at ends
    cases ends
  · refine ⟨last_after present ?_ unended, continues⟩
    intro token found
    rw [lineBreak_kinds margin token found]
    rfl

/-- A lexeme whose line has not ended is still the last one after a piece. -/
theorem Follows.last_advance (follows : Follows pieces done scan margin) :
    ∀ kind ∈ (margin.advance piece ahead).2.last, kind.endsLine = false → ∃ before text gap,
      done ++ [piece] = before ++ .lexeme kind text :: gap ∧ gap.flatMap Piece.spellings = [] ∧
        (.lineBreak ∈ gap → kind.continuesLine = true) := by
  intro kind member unended
  -- Whatever is no lexeme only widens the gap.
  have widen (silent : piece.spellings = []) (present : kind ∈ margin.last)
      (breaks : piece = .lineBreak → kind.continuesLine = true) : ∃ before text gap,
      done ++ [piece] = before ++ .lexeme kind text :: gap ∧ gap.flatMap Piece.spellings = [] ∧
        (.lineBreak ∈ gap → kind.continuesLine = true) := by
    obtain ⟨before, text, gap, rfl, spells, continues⟩ := follows.last kind present unended
    refine ⟨before, text, gap ++ [piece], by simp, by simp [spells, silent], ?_⟩
    intro found
    obtain found | found := List.mem_append.1 found
    · exact continues found
    · exact breaks (List.mem_singleton.1 found).symm
  cases piece with
  | blank | comment | joint | stray | unclosed =>
      exact widen rfl member fun same => by cases same
  | lexeme other text =>
      have same : other = kind := by simpa [Margin.advance] using member
      rw [same]
      exact ⟨done, text, [], rfl, rfl, fun found => absurd found List.not_mem_nil⟩
  | lineBreak =>
      obtain ⟨present, continues⟩ := last_lineBreak member unended
      exact widen rfl present (fun _ => continues)

/-- The lines of an indentation ascend. -/
theorem lines_measure (margin : Margin) (ahead : List Piece) :
    Ascends margin.line ((margin.measure ahead).1.tokens.map Token.line)
        (margin.measure ahead).2.line ∧
      Ascends margin.line ((margin.measure ahead).1.errors.map LexicalError.line)
        (margin.measure ahead).2.line := by
  rw [measure_line]
  constructor
  · apply Ascends.level
    simpa using fun token member => (measure_places margin ahead token member).1
  · apply Ascends.level
    simpa using measure_errorLines margin ahead

/-- The lines of what the end adds ascend. -/
theorem lines_finish (margin : Margin) :
    Ascends margin.line (margin.finish.map Token.line) margin.line := by
  apply Ascends.level
  rw [List.forall_mem_map]
  exact fun token member => (margin.finish_places.1 token member).2.2

/-- The lines of the tokens of a piece ascend. -/
theorem tokenLines_advance (margin : Margin) (piece : Piece) (ahead : List Piece) :
    Ascends margin.line ((margin.advance piece ahead).1.tokens.map Token.line)
      (margin.advance piece ahead).2.line := by
  have forward : margin.line ≤ (margin.advance piece ahead).2.line := by
    rw [advance_line, lineAfter]
    omega
  cases piece with
  | blank | comment | joint | stray | unclosed => exact .skip forward
  | lexeme kind text => exact (Ascends.single margin.line).trans (.skip forward)
  | lineBreak =>
      have broken : Ascends margin.line (margin.lineBreak.map Token.line) margin.broken.line := by
        have forward : margin.line ≤ margin.broken.line := Nat.le_succ margin.line
        obtain none | ⟨kind, -, -, -, single⟩ := margin.lineBreak_cases
        · rw [none]
          exact .skip forward
        · rw [single]
          exact (Ascends.single margin.line).trans (.skip forward)
      change Ascends _ ((margin.lineBreak ++ _).map Token.line) _
      rw [List.map_append]
      exact broken.trans (lines_measure margin.broken ahead).1

/-- The lines of the errors of a piece ascend. -/
theorem errorLines_advance (margin : Margin) (piece : Piece) (ahead : List Piece) :
    Ascends margin.line ((margin.advance piece ahead).1.errors.map LexicalError.line)
      (margin.advance piece ahead).2.line := by
  have forward : margin.line ≤ (margin.advance piece ahead).2.line := by
    rw [advance_line, lineAfter]
    omega
  cases piece with
  | blank | comment | joint | lexeme => exact .skip forward
  | stray c => exact (Ascends.single margin.line).trans (.skip forward)
  | unclosed body => exact (Ascends.skip forward).trans (.single _)
  | lineBreak =>
      have broken : margin.line ≤ margin.broken.line := Nat.le_succ margin.line
      exact (Ascends.skip broken).trans (lines_measure margin.broken ahead).2

/-- A line that ends with a lexeme ends at the first line break after it. -/
theorem Follows.numbered_lineBreak (follows : Follows pieces done scan margin)
    (whole : pieces = done ++ .lineBreak :: ahead) {kind : Kind} (last : kind ∈ margin.last)
    (unended : kind.endsLine = false) (ends : kind.continuesLine = false) :
    (Token.layout .newline margin.line).Numbered pieces scan.tokens where
  written plain := by cases plain
  newline _ := by
    obtain ⟨before, text, gap, rfl, spells, continues⟩ := follows.last kind last unended
    refine ⟨before, kind, text, gap ++ .lineBreak :: ahead, ?_, ?_, ?_⟩
    · rw [whole, List.append_assoc, List.cons_append]
    · rw [follows.spelt]
      simp [spells]
    · refine .inl ⟨ends, gap, ahead, rfl, ?_, follows.line⟩
      intro breaks
      rw [continues breaks] at ends
      cases ends

/-- The last line ends where the text ends. -/
theorem Follows.numbered_lastBreak (follows : Follows pieces pieces scan margin) {kind : Kind}
    (last : kind ∈ margin.last) (unended : kind.endsLine = false) :
    (Token.layout .newline margin.line).Numbered pieces scan.tokens where
  written plain := by cases plain
  newline _ := by
    obtain ⟨before, text, gap, whole, spells, continues⟩ := follows.last kind last unended
    refine ⟨before, kind, text, gap, whole, ?_, .inr ⟨continues, follows.line⟩⟩
    rw [follows.spelt, whole]
    simp [spells]

/-- The tokens of a piece stand on their lines. -/
theorem Follows.numbered_advance (follows : Follows pieces done scan margin)
    (whole : pieces = done ++ piece :: ahead) (written : piece.IsWritten)
    {front back : List Token} {token : Token}
    (inside : (margin.advance piece ahead).1.tokens = front ++ token :: back) :
    token.Numbered pieces (scan.tokens ++ front) := by
  cases piece with
  | blank | comment | joint | stray | unclosed =>
      have none : [] = front ++ token :: back := inside
      simp at none
  | lexeme kind text =>
      have single : [Token.ofText kind text margin.line] = front ++ token :: back := inside
      obtain ⟨rfl, rfl⟩ := eq_of_singleton single
      rw [List.append_nil]
      refine ⟨fun _ => ⟨done, text, ahead, whole, rfl, follows.spelt, follows.line⟩, ?_⟩
      intro newline
      have plain : kind.isLayout = false := written
      rw [show kind = .newline from newline] at plain
      cases plain
  | lineBreak =>
      change margin.lineBreak ++ (margin.broken.measure ahead).1.tokens = _ at inside
      obtain ⟨others, before⟩ | ⟨others, rfl, after⟩ := append_cons_cases inside
      · obtain none | ⟨kind, last, unended, ends, single⟩ := margin.lineBreak_cases
        · simp [none] at before
        · rw [single] at before
          obtain ⟨rfl, rfl⟩ := eq_of_singleton before
          rw [List.append_nil]
          exact follows.numbered_lineBreak whole last unended ends
      · exact .of_mark (measure_places margin.broken ahead token (by simp [after])).2

/-- The errors of a piece stand on their lines. -/
theorem Follows.numberedError_advance (follows : Follows pieces done scan margin)
    (whole : pieces = done ++ piece :: ahead) (closed : ∀ body, piece = .unclosed body → ahead = [])
    {front back : List LexicalError} {error : LexicalError}
    (inside : (margin.advance piece ahead).1.errors = front ++ error :: back) :
    error.Numbered pieces (scan.errors ++ front) := by
  cases piece with
  | blank | comment | joint | lexeme =>
      have none : [] = front ++ error :: back := inside
      simp at none
  | stray c =>
      have single : [⟨.unrecognized c, margin.line⟩] = front ++ error :: back := inside
      obtain ⟨rfl, rfl⟩ := eq_of_singleton single
      rw [List.append_nil]
      refine ⟨?_, nofun⟩
      intro d same
      cases same
      exact ⟨done, ahead, whole, follows.flawed, follows.line⟩
  | unclosed body =>
      have single : [⟨.unclosedString, margin.lineAfter (Piece.unclosed body).text⟩] =
          front ++ error :: back := inside
      obtain ⟨rfl, rfl⟩ := eq_of_singleton single
      refine ⟨nofun, fun _ => ?_⟩
      rw [whole, closed body rfl, Piece.lineAfter_concat, ← follows.line]
      rfl
  | lineBreak =>
      change (margin.broken.measure ahead).1.errors = _ at inside
      exact .of_measure margin.broken ahead (by simp [inside])

/-- A piece that comes next keeps the scan on the way. -/
theorem Follows.advance (follows : Follows pieces done scan margin)
    (whole : pieces = done ++ piece :: ahead) (written : piece.IsWritten)
    (closed : ∀ body, piece = .unclosed body → ahead = []) :
    Follows pieces (done ++ [piece]) (scan ++ (margin.advance piece ahead).1)
      (margin.advance piece ahead).2 where
  line := by rw [advance_line, Margin.lineAfter, follows.line, Piece.lineAfter_concat]
  spelt := by
    rw [Scan.append_tokens, spellingsOf_append, follows.spelt, spellingsOf_advance _ _ _ written]
    simp
  flawed := by
    rw [Scan.append_errors, flawsOf_append, follows.flawed, flawsOf_advance]
    simp
  last := follows.last_advance
  tokens front token back split := by
    obtain ⟨others, before⟩ | ⟨others, rfl, inside⟩ := append_cons_cases split
    · exact follows.tokens front token others before
    · exact follows.numbered_advance whole written inside
  errors front error back split := by
    obtain ⟨others, before⟩ | ⟨others, rfl, inside⟩ := append_cons_cases split
    · exact follows.errors front error others before
    · exact follows.numberedError_advance whole closed inside
  tokenLines := by
    rw [Scan.append_tokens, List.map_append]
    exact follows.tokenLines.trans (margin.tokenLines_advance piece ahead)
  errorLines := by
    rw [Scan.append_errors, List.map_append]
    exact follows.errorLines.trans (margin.errorLines_advance piece ahead)

/-- All pieces of a text are numbered if the first ones are. -/
theorem Follows.gather (follows : Follows pieces done scan margin) (whole : pieces = done ++ ahead)
    (written : ∀ piece ∈ pieces, piece.IsWritten)
    (closed : ∀ before body after, pieces = before ++ .unclosed body :: after → after = []) :
    Follows pieces pieces (scan ++ ⟨(margin.gather ahead).1, (margin.arrange ahead).errors⟩)
      (margin.gather ahead).2 := by
  induction ahead generalizing done scan margin with
  | nil =>
      have none : scan ++ ⟨[], []⟩ = scan :=
        Scan.ext (List.append_nil scan.tokens) (List.append_nil scan.errors)
      rw [List.append_nil] at whole
      rw [← whole] at follows
      change Follows pieces pieces (scan ++ ⟨[], []⟩) margin
      rwa [none]
  | cons piece ahead inductionHypothesis =>
      have step := follows.advance whole (written piece (by simp [whole])) (fun body same =>
        closed done body ahead (same ▸ whole))
      have further := inductionHypothesis step (by simp [whole])
      rw [Scan.append_assoc] at further
      exact further

/-- What the end of the text adds stands on the last line. -/
theorem Follows.finish (follows : Follows pieces pieces scan margin) {front back : List Token}
    {token : Token} (split : scan.tokens ++ margin.finish = front ++ token :: back) :
    token.Numbered pieces front := by
  obtain ⟨others, before⟩ | ⟨others, rfl, inside⟩ := append_cons_cases split
  · exact follows.tokens front token others before
  rw [finish_eq] at inside
  obtain ⟨more, breaks⟩ | ⟨more, rfl, closes⟩ := append_cons_cases inside
  · obtain ⟨none, -⟩ | ⟨kind, last, unended, single⟩ := margin.lastBreak_cases
    · simp [none] at breaks
    · rw [single] at breaks
      obtain ⟨rfl, rfl⟩ := eq_of_singleton breaks
      rw [List.append_nil]
      exact follows.numbered_lastBreak last unended
  · obtain dedent | eof := margin.closing_kinds token (by simp [closes])
    · exact .of_layout (by simp [dedent, Kind.isLayout]) (by simp [dedent])
    · exact .of_layout (by simp [eof, Kind.isLayout]) (by simp [eof])

end Step

/-- The marks of the first line come before all its lexemes. -/
theorem follows_start (pieces : List Piece) :
    Follows pieces [] (start.measure pieces).1 (start.measure pieces).2 where
  line := measure_line start pieces
  spelt := spellingsOf_measure start pieces
  flawed := flawsOf_measure start pieces
  last kind member unended := by cases last_measure member unended
  tokens front token back split :=
    .of_mark (measure_places start pieces token (by simp [split])).2
  errors front error back split := .of_measure start pieces (by simp [split])
  tokenLines := (lines_measure start pieces).1
  errorLines := (lines_measure start pieces).2

end Margin

/-- Every token and every error of the text stands on the line where it arises. -/
structure Numbered (source : String) (scan : Scan) : Prop where
  /-- No character of the text is left out of the count. -/
  counted : (Piece.split source.toList).flatMap Piece.text = source.toList
  tokens : ∀ front token back, scan.tokens = front ++ token :: back →
    token.Numbered (Piece.split source.toList) front
  /-- What closes the open blocks stands on the last line, and so does the end. -/
  ending : ∃ body, scan.tokens = body ++ List.replicate (openBlocks source)
    (.layout .dedent (1 + source.toList.count '\n')) ++
      [.layout .eof (1 + source.toList.count '\n')]
  errors : ∀ front error back, scan.errors = front ++ error :: back →
    error.Numbered (Piece.split source.toList) front
  tokensInOrder : (scan.tokens.map Token.line).Pairwise (· ≤ ·)
  errorsInOrder : (scan.errors.map LexicalError.line).Pairwise (· ≤ ·)

/-- The tokens and errors of a text are numbered from its first piece to its last. -/
theorem follows_scan (source : String) :
    Margin.Follows (Piece.split source.toList) (Piece.split source.toList)
      ⟨gathered (Piece.split source.toList), (scan source).errors⟩
      (.atEnd (Piece.split source.toList)) :=
  (Margin.follows_start (Piece.split source.toList)).gather rfl
    (Piece.split_written source.toList) fun before _ _ split => Piece.split_unclosed before split

/-- A token of a text stands on the line where it arises. -/
theorem numbered_of_scan {source : String} {front back : List Token} {token : Token}
    (split : (scan source).tokens = front ++ token :: back) :
    token.Numbered (Piece.split source.toList) front :=
  (follows_scan source).finish ((scanPieces_tokens (Piece.split source.toList)).symm.trans split)

/-- Later tokens stand on later lines. -/
theorem tokenLines_scan (source : String) :
    ((scan source).tokens.map Token.line).Pairwise (· ≤ ·) := by
  rw [scan, scanPieces_tokens, List.map_append]
  exact ((follows_scan source).tokenLines.trans (Margin.lines_finish _)).order

/-- The lines of a scan are counted exactly, and they never go back. -/
theorem scan_numbered (source : String) : Numbered source (scan source) where
  counted := Piece.split_text source.toList
  tokens _ _ _ split := numbered_of_scan split
  ending := by
    let margin := Margin.atEnd (Piece.split source.toList)
    refine ⟨gathered (Piece.split source.toList) ++ margin.lastBreak, ?_⟩
    rw [← atEnd_line source, scan, scanPieces_tokens, Margin.finish_eq, Margin.closing]
    simp only [List.append_assoc]
    rfl
  errors := (follows_scan source).errors
  tokensInOrder := tokenLines_scan source
  errorsInOrder := (follows_scan source).errorLines.order

end Offside
