/-
This file proves which lines without a lexeme leave the layout of a text alone, and that they change
nothing but the line numbers after them.
-/

import Offside.Proofs.Report.Numbering

namespace Offside

/-- The line holds blanks and perhaps a comment. -/
inductive BlankLine : List Char → Prop
  | empty : BlankLine []
  | comment {body : List Char} : '\n' ∉ body → BlankLine ('/' :: '/' :: body)
  | blank {c : Char} {rest : List Char} : Piece.isGap c = true → BlankLine rest →
      BlankLine (c :: rest)

/-- This is what a text gives before its end adds anything. -/
def scanBefore (source : String) : Scan :=
  ⟨gathered (Piece.split source.toList), (scan source).errors⟩

/-- The text is empty, or it ends with a line break that belongs to no string and no joint. -/
def LineStartsAfter (source : String) : Prop :=
  ∀ last ∈ (Piece.split source.toList).getLast?, last = .lineBreak

/-- With the line between the two texts, all that comes after it stands one line later, and nothing
else changes. -/
def Unseen (before line later : String) : Prop :=
  ∃ rest, scan (before ++ later) = scanBefore before ++ rest ∧
    scan (before ++ line ++ "\n" ++ later) = scanBefore before ++ rest.shift 1

/-- Scans that are equal behind a common start are equal. -/
theorem Scan.append_left_cancel {first second third : Scan}
    (same : first ++ second = first ++ third) : second = third := by
  ext1
  · exact List.append_cancel_left (congrArg Scan.tokens same)
  · exact List.append_cancel_left (congrArg Scan.errors same)

/-- The texts after a text with its own last line are cut as they would be alone. -/
theorem LineStartsAfter.split_append {before : String} (starts : LineStartsAfter before)
    (later : List Char) :
    Piece.split (before.toList ++ later) = Piece.split before.toList ++ Piece.split later := by
  have ends : Piece.EndsLine before.toList := by
    cases last : (Piece.split before.toList).getLast? with
    | none =>
        have nothing := Piece.split_text before.toList
        rw [List.getLast?_eq_none_iff.1 last] at nothing
        rw [← nothing]
        exact nofun
    | some piece =>
        obtain rfl := starts piece last
        exact (Piece.endsScript_of_split last).line
  apply Piece.split_append ends
  intro body member
  obtain ⟨front, back, whole⟩ := List.append_of_mem member
  obtain rfl := Piece.split_unclosed front whole
  cases starts (.unclosed body) (by simp [whole])

namespace BlankLine

open Margin Piece

variable {text : List Char}

/-- A gap is a space, a tab or a carriage return. -/
theorem isGap_cases {c : Char} (gap : isGap c = true) :
    c = ' ' ∨ c = '\t' ∨ c = '\r' := by
  simpa [isGap, or_assoc] using gap

/-- A gap is one blank piece. -/
theorem split_blank {c : Char} (gap : isGap c = true) (rest : List Char) :
    split (c :: rest) = .blank c :: split rest := by
  obtain rfl | rfl | rfl := isGap_cases gap <;> exact split_cons _ rest

/-- A comment is one piece up to its line break. -/
theorem split_comment {body : List Char} (absent : '\n' ∉ body) (later : List Char) :
    split ('/' :: '/' :: body ++ '\n' :: later) = .comment body :: split ('\n' :: later) := by
  have all := bne_of_notMem absent
  have stop : cut '/' ('/' :: body ++ '\n' :: later) = (.comment body, '\n' :: later) := by
    change (Piece.comment ((body ++ '\n' :: later).takeWhile _),
      (body ++ '\n' :: later).dropWhile _) = _
    rw [List.takeWhile_append_of_pos all, List.dropWhile_append_of_pos all]
    simp
  change split ('/' :: ('/' :: body ++ '\n' :: later)) = _
  rw [split_cons, stop]

/-- A piece that changes nothing may be left out. -/
theorem arrange_of_idle {margin : Margin} {piece : Piece} {ahead : List Piece}
    (idle : margin.advance piece ahead = (.empty, margin)) :
    margin.arrange (piece :: ahead) = margin.arrange ahead := by
  rw [Margin.arrange, idle]
  exact Scan.ext rfl rfl

/-- The pieces of a blank line leave the margin where it is. -/
theorem arrange (blank : BlankLine text) (margin : Margin) (later : List Char) :
    margin.arrange (split (text ++ '\n' :: later)) =
      margin.arrange (.lineBreak :: split later) := by
  induction blank with
  | empty =>
      rw [List.nil_append, split_cons]
      rfl
  | @comment body absent =>
      have idle : margin.advance (.comment body) (split ('\n' :: later)) = (.empty, margin) := by
        simp [advance, Margin.lineAfter, Piece.text, List.count_eq_zero_of_not_mem absent]
      rw [split_comment absent, arrange_of_idle idle, split_cons]
      rfl
  | @blank c rest gap _ inductionHypothesis =>
      have idle : margin.advance (.blank c) (split (rest ++ '\n' :: later)) = (.empty, margin) := by
        obtain rfl | rfl | rfl := isGap_cases gap <;> rfl
      rw [List.cons_append, split_blank gap, arrange_of_idle idle, inductionHypothesis]

/-- Only a tab after the spaces makes the layout take a blank line for a line with a lexeme. -/
theorem idle_or_tabbed (blank : BlankLine text) (later : List Char) :
    isSignificant (content (split (text ++ '\n' :: later))) = false ∨
      ∃ count others, text = List.replicate count ' ' ++ '\t' :: others := by
  induction blank with
  | empty =>
      rw [List.nil_append, split_cons]
      exact .inl rfl
  | comment absent =>
      rw [split_comment absent]
      exact .inl rfl
  | @blank c rest gap _ inductionHypothesis =>
      rw [List.cons_append, split_blank gap]
      obtain rfl | rfl | rfl := isGap_cases gap
      · obtain idle | ⟨count, others, rfl⟩ := inductionHypothesis
        · exact .inl idle
        · exact .inr ⟨count + 1, others, rfl⟩
      · exact .inr ⟨0, rest, rfl⟩
      · exact .inl rfl

/-- The layout measures a line with a tab after its spaces. -/
theorem measured_of_tab (count : Nat) (others : List Char) :
    spaces (split (List.replicate count ' ' ++ '\t' :: others)) = count ∧
      isSignificant (content (split (List.replicate count ' ' ++ '\t' :: others))) = true := by
  have all : ∀ c ∈ List.replicate count ' ', (c == ' ') = true := by simp
  obtain ⟨width, after⟩ := head_of_split (List.replicate count ' ' ++ '\t' :: others)
  rw [List.takeWhile_append_of_pos all] at width
  rw [List.dropWhile_append_of_pos all] at after
  rw [width, after]
  refine ⟨by simp, ?_⟩
  change isSignificant (split ('\t' :: others)) = true
  rw [split_cons]
  rfl

/-- A blank line adds nothing at the head of its line, unless a tab stands off the depth. -/
theorem measure_still (blank : BlankLine text) (margin : Margin) (later : List Char)
    (still : ∀ count others, text = List.replicate count ' ' ++ '\t' :: others →
      count = indentWidth * margin.depth) :
    margin.measure (split (text ++ '\n' :: later)) = (.empty, margin) := by
  obtain idle | ⟨count, others, rfl⟩ := blank.idle_or_tabbed later
  · exact measure_idle idle
  · obtain ⟨width, significant⟩ := measured_of_tab count (others ++ '\n' :: later)
    have level := still count others rfl
    have aligned : count % indentWidth = 0 := by rw [level, Nat.mul_mod_right]
    have depth : count / indentWidth = margin.depth := by
      rw [level, Nat.mul_div_cancel_left _ (by decide)]
    have none : steps margin.depth margin.depth margin.line = [] := by simp [steps]
    rw [List.append_assoc, List.cons_append, measure_aligned significant (by rwa [width]), width,
      depth, none]
    rfl

/-- Where a tab stands off the depth, the line shows in the layout. -/
theorem measure_shows (margin : Margin) {count : Nat} (others : List Char)
    (off : count ≠ indentWidth * margin.depth) :
    (margin.measure (split (List.replicate count ' ' ++ '\t' :: others))).1 ≠ .empty := by
  obtain ⟨width, significant⟩ := measured_of_tab count others
  by_cases aligned : count % indentWidth = 0
  · have apart : count / indentWidth ≠ margin.depth := by
      intro same
      apply off
      rw [← same, Nat.mul_div_cancel' (Nat.dvd_of_mod_eq_zero aligned)]
    rw [measure_aligned significant (by rwa [width]), width]
    simp only [Scan.ofTokens, Scan.empty, steps, ne_eq, Scan.mk.injEq, List.append_eq_nil_iff,
      List.replicate_eq_nil_iff, and_true]
    omega
  · rw [measure_misaligned significant (by rwa [width])]
    simp [Scan.ofError, Scan.empty]

/-- Where a line starts, a blank line that adds nothing leaves the text after it as it is, one line
later. -/
theorem lines_later (blank : BlankLine text) {margin : Margin} (starts : StartsLine margin.last)
    (later : List Char)
    (still : margin.measure (split (text ++ '\n' :: later)) = (.empty, margin)) :
    margin.lines (split (text ++ '\n' :: later)) = (margin.lines (split later)).shift 1 := by
  have silent : margin.lineBreak = [] := by
    obtain none | ⟨kind, last, unended, ends, -⟩ := margin.lineBreak_cases
    · exact none
    · have := starts kind last
      simp [unended, ends] at this
  have echoes : Echoes 1 margin margin.broken := by
    rw [Margin.broken, silent]
    exact ⟨rfl, rfl, .inl rfl⟩
  rw [← echoes.lines, Margin.lines, still, blank.arrange, arrange_lineBreak, silent]
  exact Scan.ext rfl rfl

end BlankLine

namespace Margin

/-- Nothing stands before the line where the layout starts. -/
theorem lines_from (margin : Margin) {pieces : List Piece}
    (written : ∀ piece ∈ pieces, piece.IsWritten) :
    (∀ token ∈ (margin.lines pieces).tokens, margin.line ≤ token.line) ∧
      ∀ error ∈ (margin.lines pieces).errors, margin.line ≤ error.line := by
  have first := margin.measure_line pieces
  have last := gather_line (margin.measure pieces).2 pieces
  rw [lineAfter] at last
  constructor
  · intro token member
    obtain member | member := List.mem_append.1 member
    · have := (measure_places _ _ token member).1
      omega
    · rw [arrange_tokens] at member
      obtain member | member := List.mem_append.1 member
      · have := (gather_places _ written token member).1
        omega
      · have := (finish_places _).1 token member
        omega
  · intro error member
    obtain member | member := List.mem_append.1 member
    · have := measure_errorLines _ _ error member
      omega
    · have := (arrange_errorLines _ _ error member).1
      omega

/-- A line that shows is no later line. -/
theorem lines_ne_later (margin : Margin) {text later : List Char}
    (shows : (margin.measure (Piece.split text)).1 ≠ .empty) :
    margin.lines (Piece.split text) ≠ (margin.lines (Piece.split later)).shift 1 := by
  obtain ⟨tokenLines, errorLines⟩ := margin.lines_from (Piece.split_written later)
  intro same
  apply shows
  ext1
  · apply List.eq_nil_iff_forall_not_mem.2
    intro token member
    have here := (measure_places _ _ token member).1
    have moved : token ∈ (margin.lines (Piece.split text)).tokens :=
      List.mem_append_left _ member
    rw [same] at moved
    obtain ⟨other, found, rfl⟩ := List.mem_map.1 moved
    have onward : other.line + 1 = margin.line := here
    have := tokenLines other found
    omega
  · apply List.eq_nil_iff_forall_not_mem.2
    intro error member
    have here := measure_errorLines _ _ error member
    have moved : error ∈ (margin.lines (Piece.split text)).errors :=
      List.mem_append_left _ member
    rw [same] at moved
    obtain ⟨other, found, rfl⟩ := List.mem_map.1 moved
    have onward : other.line + 1 = margin.line := here
    have := errorLines other found
    omega

end Margin

/-- What comes after the first text is laid out from the margin where that text ends. -/
theorem scan_after {before : String} (starts : LineStartsAfter before) (later : List Char) :
    scan (String.ofList (before.toList ++ later)) = scanBefore before ++
      (Margin.atEnd (Piece.split before.toList)).lines (Piece.split later) := by
  rw [scan, String.toList_ofList, starts.split_append, scanPieces_append starts]
  rfl

/-- A line is unseen when the lines from it on are those after it, one line later. -/
theorem unseen_iff {before : String} (starts : LineStartsAfter before) (line later : String) :
    Unseen before line later ↔
      (Margin.atEnd (Piece.split before.toList)).lines
          (Piece.split (line.toList ++ '\n' :: later.toList)) =
        ((Margin.atEnd (Piece.split before.toList)).lines
          (Piece.split later.toList)).shift 1 := by
  have first := scan_after starts later.toList
  have second := scan_after starts (line.toList ++ '\n' :: later.toList)
  have without : String.ofList (before.toList ++ later.toList) = before ++ later := by
    rw [String.ofList_append, String.ofList_toList, String.ofList_toList]
  have within : String.ofList (before.toList ++ (line.toList ++ '\n' :: later.toList)) =
      before ++ line ++ "\n" ++ later := by
    apply String.toList_inj.1
    simp
  rw [without] at first
  rw [within] at second
  unfold Unseen
  rw [first, second]
  constructor
  · rintro ⟨rest, same, shifted⟩
    rw [Scan.append_left_cancel same]
    exact Scan.append_left_cancel shifted
  · intro same
    exact ⟨_, rfl, congrArg _ same⟩

/-- A blank line goes unseen in the layout unless a tab stands after its spaces and their number is
not that of the depth before the line. -/
theorem scan_blankLine {before line : String} (starts : LineStartsAfter before)
    (blank : BlankLine line.toList) (later : String) :
    Unseen before line later ↔ ∀ count others,
      line.toList = List.replicate count ' ' ++ '\t' :: others →
        count = indentWidth * openBlocks before := by
  rw [unseen_iff starts]
  constructor
  · intro same count others tabbed
    by_contra off
    apply Margin.lines_ne_later _ _ same
    rw [tabbed, List.append_assoc]
    exact BlankLine.measure_shows _ _ off
  · intro level
    exact blank.lines_later (startsLine_atEnd starts) _ (blank.measure_still _ _ level)

/-- A tab right at the depth of the open block goes unseen, and so does all that follows it on its
line. -/
theorem scan_blankLine_at_depth :
    let before := "if x then\n    a\n"
    let line := "    \t\r// note"
    LineStartsAfter before ∧ BlankLine line.toList ∧ openBlocks before = 1 ∧
      Unseen before line "    b\n" := by
  intro before line
  have pieces : Piece.split before.toList =
      [.lexeme (.keyword .if_) ['i', 'f'], .blank ' ', .lexeme .name ['x'], .blank ' ',
        .lexeme (.keyword .then_) ['t', 'h', 'e', 'n'], .lineBreak, .blank ' ', .blank ' ',
        .blank ' ', .blank ' ', .lexeme .name ['a'], .lineBreak] := by
    change Piece.split "if x then\n    a\n".toList = _
    rw [Piece.split_eq_splitWithin (Nat.le_refl 16)]
    rfl
  have starts : LineStartsAfter before := by
    rw [LineStartsAfter, pieces]
    decide
  have characters : line.toList =
      [' ', ' ', ' ', ' ', '\t', '\r', '/', '/', ' ', 'n', 'o', 't', 'e'] := by decide
  have blank : BlankLine line.toList := by
    rw [characters]
    iterate 6 apply BlankLine.blank rfl
    exact .comment (by decide)
  have depth : openBlocks before = 1 := by
    rw [openBlocks, pieces]
    rfl
  refine ⟨starts, blank, depth, (scan_blankLine starts blank _).2 ?_⟩
  intro count others tabbed
  rw [depth]
  have width := (BlankLine.measured_of_tab count others).1
  rw [← tabbed, (Margin.head_of_split line.toList).1, characters] at width
  exact width.symm

/-- A tab at the head of a line cuts the block around the line in two. -/
theorem scan_blankLine_off_depth :
    let before := "if x then\n    a\n"
    let later := "    b\n"
    let kinds (source : String) := (scan source).tokens.map Token.kind
    LineStartsAfter before ∧ BlankLine "\t".toList ∧
      kinds (before ++ later) = [.keyword .if_, .name, .keyword .then_, .indent, .name, .newline,
        .name, .newline, .dedent, .eof] ∧
      kinds (before ++ "\t" ++ "\n" ++ later) = [.keyword .if_, .name, .keyword .then_, .indent,
        .name, .newline, .dedent, .indent, .name, .newline, .dedent, .eof] ∧
      ¬Unseen before "\t" later := by
  intro before later kinds
  have starts : LineStartsAfter before := by
    change ∀ last ∈ (Piece.split "if x then\n    a\n".toList).getLast?, last = .lineBreak
    rw [Piece.split_eq_splitWithin (Nat.le_refl 16)]
    decide
  have without : kinds (before ++ later) = [.keyword .if_, .name, .keyword .then_, .indent, .name,
      .newline, .name, .newline, .dedent, .eof] := by
    change (scan "if x then\n    a\n    b\n").tokens.map Token.kind = _
    unfold scan
    rw [Piece.split_eq_splitWithin (Nat.le_refl 22)]
    rfl
  have within : kinds (before ++ "\t" ++ "\n" ++ later) = [.keyword .if_, .name, .keyword .then_,
      .indent, .name, .newline, .dedent, .indent, .name, .newline, .dedent, .eof] := by
    change (scan "if x then\n    a\n\t\n    b\n").tokens.map Token.kind = _
    unfold scan
    rw [Piece.split_eq_splitWithin (Nat.le_refl 24)]
    rfl
  refine ⟨starts, .blank rfl .empty, without, within, ?_⟩
  rintro ⟨rest, first, second⟩
  have shorter := congrArg List.length without
  have longer := congrArg List.length within
  simp only [kinds, first, second, Scan.append_tokens, Scan.shift, List.length_map,
    List.length_append, List.length_cons, List.length_nil] at shorter longer
  omega

end Offside
