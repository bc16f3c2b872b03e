/-
This file proves that a text after a line break is laid out as it would be alone, on later lines
and after the dedents of the blocks that are still open.
-/

import Offside.Proofs.Layout
import Offside.Proofs.Seam.Pieces

namespace Offside

def Token.shift (amount : Nat) (token : Token) : Token := { token with line := token.line + amount }

namespace Scan

@[ext]
theorem ext {first second : Scan} (tokens : first.tokens = second.tokens)
    (errors : first.errors = second.errors) : first = second := by
  cases first
  cases second
  simp_all

@[simp]
theorem append_tokens (first second : Scan) :
    (first ++ second).tokens = first.tokens ++ second.tokens := rfl

@[simp]
theorem append_errors (first second : Scan) :
    (first ++ second).errors = first.errors ++ second.errors := rfl

theorem append_assoc (first second third : Scan) :
    first ++ second ++ third = first ++ (second ++ third) := by
  ext1 <;> simp

/-- The same scan of a text that starts on a later line. -/
def shift (amount : Nat) (scan : Scan) : Scan :=
  ⟨scan.tokens.map (Token.shift amount),
    scan.errors.map fun error => { error with line := error.line + amount }⟩

/-- Scans in a row are shifted one by one. -/
theorem shift_append (amount : Nat) (first second : Scan) :
    (first ++ second).shift amount = first.shift amount ++ second.shift amount := by
  ext1
  · exact List.map_append
  · exact List.map_append

end Scan

/-- A shift leaves the last kind as it is. -/
theorem lastKind_shift (amount : Nat) (previous : Option Kind) (tokens : List Token) :
    lastKind previous (tokens.map (Token.shift amount)) = lastKind previous tokens := by
  unfold lastKind
  rw [List.getLast?_map, Option.map_map]
  rfl

namespace Margin

/-- These are the spaces at the head of a line. -/
def spaces (ahead : List Piece) : Nat := (ahead.takeWhile (· == Piece.blank ' ')).length

/-- This is what stands after the spaces. -/
def content (ahead : List Piece) : List Piece := ahead.dropWhile (· == Piece.blank ' ')

section Measure

variable {margin : Margin} {ahead : List Piece}

/-- A line without content leaves the margin as it is. -/
theorem measure_idle (idle : isSignificant (content ahead) = false) :
    margin.measure ahead = (.empty, margin) := by
  unfold content at idle
  simp [measure, idle]

/-- A misaligned line is an error and leaves the margin as it is. -/
theorem measure_misaligned (significant : isSignificant (content ahead) = true)
    (misaligned : spaces ahead % indentWidth ≠ 0) :
    margin.measure ahead = (.ofError .misalignedIndent margin.line, margin) := by
  unfold content at significant
  unfold spaces at misaligned
  simp [measure, significant, misaligned]

/-- An aligned line sets the depth. -/
theorem measure_aligned (significant : isSignificant (content ahead) = true)
    (aligned : spaces ahead % indentWidth = 0) :
    margin.measure ahead =
      (.ofTokens (steps margin.depth (spaces ahead / indentWidth) margin.line),
        { margin.after (steps margin.depth (spaces ahead / indentWidth) margin.line) with
          depth := spaces ahead / indentWidth }) := by
  unfold content at significant
  unfold spaces at aligned ⊢
  simp [measure, significant, aligned]

/-- An indentation stays on its line. -/
theorem measure_line (margin : Margin) (ahead : List Piece) :
    (margin.measure ahead).2.line = margin.line := by
  unfold measure
  dsimp only
  repeat' split
  all_goals rfl

/-- Only the first piece after the spaces of a line decides about its depth. -/
theorem measure_append (later : List Piece) (stop : content ahead ≠ []) :
    margin.measure (ahead ++ later) = margin.measure ahead := by
  have same : isSignificant (content ahead ++ later) = isSignificant (content ahead) := by
    cases inside : content ahead with
    | nil => exact absurd inside stop
    | cons first rest => cases first <;> rfl
  unfold content at stop same
  simp only [measure, takeWhile_append_of_stop stop, dropWhile_append_of_stop stop, same]

end Measure

/-- The layout of pieces at the head of a line. -/
def lines (margin : Margin) (pieces : List Piece) : Scan :=
  (margin.measure pieces).1 ++ (margin.measure pieces).2.arrange pieces

/-- This is the margin after a line break. -/
def broken (margin : Margin) : Margin :=
  { margin with line := margin.line + 1 }.after margin.lineBreak

/-- After a line break the pieces are laid out as lines. -/
theorem arrange_lineBreak (margin : Margin) (ahead : List Piece) :
    margin.arrange (.lineBreak :: ahead) =
      .ofTokens margin.lineBreak ++ margin.broken.lines ahead :=
  Scan.append_assoc _ _ _

/-- A line break is content. -/
theorem content_ne_nil (before : List Piece) : content (before ++ [.lineBreak]) ≠ [] := by
  intro none
  have passes := List.dropWhile_eq_nil_iff.1 none .lineBreak (by simp)
  cases passes

/-- A piece before a line break is laid out without a look at later lines. -/
theorem advance_append (margin : Margin) (piece : Piece) (before later : List Piece) :
    margin.advance piece (before ++ [.lineBreak] ++ later) =
      margin.advance piece (before ++ [.lineBreak]) := by
  cases piece with
  | lineBreak =>
      unfold advance
      simp only [measure_append later (content_ne_nil before)]
  | _ => rfl

/-- After a line break, the layout goes on from the margin that the pieces before it leave. -/
theorem arrange_append (margin : Margin) (before later : List Piece) :
    margin.arrange (before ++ [.lineBreak] ++ later) =
      ⟨(margin.gather (before ++ [.lineBreak])).1,
        (margin.arrange (before ++ [.lineBreak])).errors⟩ ++
      (margin.gather (before ++ [.lineBreak])).2.lines later := by
  induction before generalizing margin with
  | nil =>
      have after : margin.gather [.lineBreak] = (margin.lineBreak, margin.broken) := by
        change (margin.lineBreak ++ [] ++ [], margin.broken) = _
        rw [List.append_nil, List.append_nil]
      simp only [List.nil_append, after]
      exact margin.arrange_lineBreak later
  | cons piece before inductionHypothesis =>
      have step := advance_append margin piece before later
      simp only [List.cons_append] at *
      rw [arrange, step, inductionHypothesis, ← Scan.append_assoc]
      rfl

/-- Every piece moves the line on by its own line breaks. -/
theorem gather_line (margin : Margin) (pieces : List Piece) :
    (margin.gather pieces).2.line = margin.lineAfter (pieces.flatMap Piece.text) := by
  induction pieces generalizing margin with
  | nil => rfl
  | cons piece ahead inductionHypothesis =>
      have step : (margin.advance piece ahead).2.line = margin.lineAfter piece.text := by
        cases piece with
        | lineBreak => exact measure_line _ _
        | _ => rfl
      change ((margin.advance piece ahead).2.gather ahead).2.line = _
      rw [inductionHypothesis]
      unfold lineAfter at step ⊢
      rw [step, List.flatMap_cons, List.count_append, Nat.add_assoc]

/-- The last token, if there is one, has ended its line. -/
def Ended (margin : Margin) : Prop := ∀ kind ∈ margin.last, kind.endsLine = true

theorem ended_of_none {margin : Margin} (none : margin.last = none) : Ended margin := by
  intro kind present
  rw [none] at present
  cases present

/-- A line break adds no token to a line that has ended. -/
theorem Ended.lineBreak {margin : Margin} (ended : Ended margin) : margin.lineBreak = [] := by
  unfold Margin.lineBreak
  split
  · rfl
  next kind last => simp [ended kind last]

/-- After a line that has ended the end only closes the blocks. -/
theorem Ended.finish {margin : Margin} (ended : Ended margin) : margin.finish = margin.closing := by
  obtain ⟨none, -⟩ | ⟨kind, last, unended, -⟩ := margin.lastBreak_cases
  · rw [finish_eq, none, List.nil_append]
  · rw [ended kind last] at unended
    cases unended

/-- Dedents leave the line ended. -/
theorem Ended.dedents {margin : Margin} (ended : Ended margin) (count line : Nat) :
    Ended (margin.after (List.replicate count (.layout .dedent line))) := by
  cases count with
  | zero => exact ended
  | succ count =>
      intro kind present
      simp only [after, List.getLast?_replicate] at present
      obtain rfl := Option.mem_some_iff.1 present
      rfl

/-- The margin of the same text at a later place. Where the text alone has no token yet, the last
token before it has ended its line. -/
structure Echoes (amount : Nat) (alone joined : Margin) : Prop where
  line : joined.line = alone.line + amount
  depth : joined.depth = alone.depth
  last : joined.last = alone.last ∨ alone.last = none ∧ Ended joined

namespace Echoes

variable {amount : Nat} {alone joined : Margin}

/-- Margins still echo after tokens that do. -/
theorem after (echoes : Echoes amount alone joined) (tokens : List Token) :
    Echoes amount (alone.after tokens) (joined.after (tokens.map (Token.shift amount))) where
  line := echoes.line
  depth := echoes.depth
  last := by
    have kinds : (joined.after (tokens.map (Token.shift amount))).last =
        lastKind joined.last tokens := lastKind_shift amount joined.last tokens
    obtain same | ⟨none, ended⟩ := echoes.last
    · rw [kinds, same]
      exact Or.inl rfl
    · cases tokens with
      | nil => exact Or.inr ⟨none, ended⟩
      | cons token rest =>
          rw [kinds, lastKind_cons]
          exact Or.inl (lastKind_cons alone.last token rest).symm

/-- Steps on a later line are the shifted steps. -/
theorem steps (source target line amount : Nat) : Margin.steps source target (line + amount) =
    (Margin.steps source target line).map (Token.shift amount) := by
  simp [Margin.steps, Token.shift, Token.layout]

/-- An indentation echoes at the later place. -/
theorem measure (echoes : Echoes amount alone joined) (ahead : List Piece) :
    (joined.measure ahead).1 = (alone.measure ahead).1.shift amount ∧
      Echoes amount (alone.measure ahead).2 (joined.measure ahead).2 := by
  cases significant : isSignificant (content ahead) with
  | false =>
      rw [measure_idle significant, measure_idle significant]
      exact ⟨rfl, echoes⟩
  | true =>
      by_cases aligned : spaces ahead % indentWidth = 0
      · rw [measure_aligned significant aligned, measure_aligned significant aligned, echoes.depth,
          echoes.line, steps]
        exact ⟨rfl, echoes.line, rfl, (echoes.after _).last⟩
      · rw [measure_misaligned significant aligned, measure_misaligned significant aligned,
          echoes.line]
        exact ⟨rfl, echoes⟩

/-- A line break echoes at the later place. -/
theorem lineBreak (echoes : Echoes amount alone joined) :
    joined.lineBreak = alone.lineBreak.map (Token.shift amount) := by
  obtain same | ⟨none, ended⟩ := echoes.last
  · unfold Margin.lineBreak
    rw [same, echoes.line]
    split
    · rfl
    · split <;> rfl
  · rw [ended.lineBreak, Ended.lineBreak (ended_of_none none)]
    rfl

/-- What the end adds echoes at the later place. -/
theorem finish (echoes : Echoes amount alone joined) :
    joined.finish = alone.finish.map (Token.shift amount) := by
  have closing : joined.closing = alone.closing.map (Token.shift amount) := by
    simp [Margin.closing, echoes.depth, echoes.line, Token.shift, Token.layout]
  obtain same | ⟨none, ended⟩ := echoes.last
  · rw [finish_eq, finish_eq, List.map_append, closing]
    congr 1
    unfold lastBreak
    rw [same, echoes.line]
    split
    · rfl
    · split <;> rfl
  · rw [ended.finish, Ended.finish (ended_of_none none), closing]

/-- Margins still echo after a line break. -/
theorem broken (echoes : Echoes amount alone joined) :
    Echoes amount alone.broken joined.broken := by
  unfold Margin.broken
  rw [echoes.lineBreak]
  apply Echoes.after
  exact ⟨by simp [echoes.line, Nat.add_right_comm], echoes.depth, echoes.last⟩

/-- Margins still echo after a text. -/
theorem moved (echoes : Echoes amount alone joined) (text : List Char) : Echoes amount
    { alone with line := alone.lineAfter text } { joined with line := joined.lineAfter text } where
  line := by
    unfold lineAfter
    rw [echoes.line, Nat.add_right_comm]
  depth := echoes.depth
  last := echoes.last

/-- A piece echoes at the later place. -/
theorem advance (echoes : Echoes amount alone joined) (piece : Piece) (ahead : List Piece) :
    (joined.advance piece ahead).1 = (alone.advance piece ahead).1.shift amount ∧
      Echoes amount (alone.advance piece ahead).2 (joined.advance piece ahead).2 := by
  have next := echoes.moved piece.text
  cases piece with
  | blank c => exact ⟨rfl, next⟩
  | comment body => exact ⟨rfl, next⟩
  | joint carriage => exact ⟨rfl, next⟩
  | stray c => exact ⟨congrArg (Scan.ofError _) echoes.line, next⟩
  | unclosed body => exact ⟨congrArg (Scan.ofError _) next.line, next⟩
  | lexeme kind text =>
      refine ⟨?_, next.line, next.depth, Or.inl rfl⟩
      exact congrArg (fun line => Scan.ofTokens [.ofText kind text line]) echoes.line
  | lineBreak =>
      obtain ⟨tokens, further⟩ := echoes.broken.measure ahead
      refine ⟨?_, further⟩
      change Scan.ofTokens joined.lineBreak ++ (joined.broken.measure ahead).1 =
        (Scan.ofTokens alone.lineBreak ++ (alone.broken.measure ahead).1).shift amount
      rw [Scan.shift_append, tokens, echoes.lineBreak]
      rfl

/-- A text is laid out in the same way at a later place. -/
theorem arrange (echoes : Echoes amount alone joined) (pieces : List Piece) :
    joined.arrange pieces = (alone.arrange pieces).shift amount := by
  induction pieces generalizing alone joined with
  | nil => exact congrArg Scan.ofTokens echoes.finish
  | cons piece ahead inductionHypothesis =>
      obtain ⟨tokens, further⟩ := echoes.advance piece ahead
      rw [Margin.arrange, Margin.arrange, Scan.shift_append, tokens, inductionHypothesis further]

/-- Whole lines echo at the later place. -/
theorem lines (echoes : Echoes amount alone joined) (pieces : List Piece) :
    joined.lines pieces = (alone.lines pieces).shift amount := by
  obtain ⟨measured, further⟩ := echoes.measure pieces
  rw [Margin.lines, Margin.lines, Scan.shift_append, measured, further.arrange]

end Echoes

/-- Alone, the text has no token yet. At the later place, blocks may still be open. -/
structure Awaits (amount : Nat) (alone joined : Margin) : Prop where
  line : joined.line = alone.line + amount
  depth : alone.depth = 0
  last : alone.last = none
  ended : Ended joined

end Margin

namespace Scan

/-- The scan has no errors and does not start with an indent. -/
structure Opens (scan : Scan) : Prop where
  errors : scan.errors = []
  head : ∀ token ∈ scan.tokens.head?, token.kind ≠ .indent

/-- The later scan closes the open blocks first. -/
structure Resumes (amount depth : Nat) (alone joined : Scan) : Prop where
  tokens : ∃ line, joined.tokens =
    List.replicate depth (.layout .dedent line) ++ alone.tokens.map (Token.shift amount)
  errors : joined.errors = []

end Scan

namespace Margin.Awaits

variable {amount : Nat} {alone joined : Margin}

/-- A text without tokens leaves the margins waiting. -/
theorem moved (awaits : Awaits amount alone joined) (text : List Char) : Awaits amount
    { alone with line := alone.lineAfter text } { joined with line := joined.lineAfter text } where
  line := by
    unfold lineAfter
    rw [awaits.line, Nat.add_right_comm]
  depth := awaits.depth
  last := awaits.last
  ended := awaits.ended

/-- At the end the later scan closes the open blocks first. -/
theorem finish (awaits : Awaits amount alone joined) :
    Scan.Resumes amount joined.depth (.ofTokens alone.finish) (.ofTokens joined.finish) where
  tokens := by
    refine ⟨joined.line, ?_⟩
    change joined.finish = _ ++ alone.finish.map _
    rw [awaits.ended.finish, (ended_of_none awaits.last).finish]
    simp [closing, awaits.depth, awaits.line, Token.shift, Token.layout]
  errors := rfl

/-- A line that opens a scan has something on it without an indent. -/
theorem flush (awaits : Awaits amount alone joined) {pieces : List Piece}
    (significant : isSignificant (content pieces) = true) (opens : (alone.lines pieces).Opens) :
    spaces pieces % indentWidth = 0 ∧ spaces pieces / indentWidth = 0 := by
  have errors := opens.errors
  have head := opens.head
  unfold lines at errors head
  by_cases aligned : spaces pieces % indentWidth = 0
  · refine ⟨aligned, ?_⟩
    rw [measure_aligned significant aligned, awaits.depth] at head
    cases deeper : spaces pieces / indentWidth with
    | zero => rfl
    | succ depth =>
        rw [deeper] at head
        exact absurd rfl (head (.layout .indent alone.line) rfl)
  · rw [measure_misaligned significant aligned] at errors
    cases errors

/-- The first line with something on it closes the blocks. -/
theorem lines_significant (awaits : Awaits amount alone joined) {pieces : List Piece}
    (significant : isSignificant (content pieces) = true) (opens : (alone.lines pieces).Opens) :
    Scan.Resumes amount joined.depth (alone.lines pieces) (joined.lines pieces) := by
  obtain ⟨aligned, level⟩ := awaits.flush significant opens
  let dedents := List.replicate joined.depth (Token.layout .dedent joined.line)
  have first : alone.measure pieces = (.empty, alone) := by
    rw [measure_aligned significant aligned, level, awaits.depth]
    obtain ⟨line, depth, last⟩ := alone
    obtain rfl : depth = 0 := awaits.depth
    rfl
  have second : joined.measure pieces =
      (.ofTokens dedents, { joined.after dedents with depth := 0 }) := by
    rw [measure_aligned significant aligned, level]
    simp [steps, dedents]
  have echoes : Echoes amount alone { joined.after dedents with depth := 0 } :=
    ⟨awaits.line, awaits.depth.symm, Or.inr ⟨awaits.last, awaits.ended.dedents _ _⟩⟩
  have errors := opens.errors
  unfold lines at errors ⊢
  rw [first] at errors ⊢
  rw [second, echoes.arrange]
  exact ⟨⟨joined.line, rfl⟩, congrArg (List.map _) errors⟩

/-- Where the line ends, nothing more stands on it. -/
theorem idle_of_lineEnd {pieces : List Piece}
    (ends : ∀ next ∈ pieces.head?, next = Piece.lineBreak) :
    isSignificant (content pieces) = false := by
  cases pieces with
  | nil => rfl
  | cons first rest =>
      obtain rfl := ends first rfl
      rfl

/-- A blank leaves an idle line idle. -/
theorem idle_of_blank {c : Char} {rest : List Piece}
    (idle : isSignificant (content (.blank c :: rest)) = false)
    (next : ∀ second ∈ rest.head?, (Piece.blank c).endsText = true → second = .lineBreak) :
    isSignificant (content rest) = false := by
  by_cases space : c = ' '
  · subst space
    exact idle
  · have whole : content (.blank c :: rest) = .blank c :: rest :=
      List.dropWhile_cons_of_neg (by simp [space])
    rw [whole] at idle
    have carriage : c = '\r' := bne_eq_false_iff_eq.1 idle
    exact idle_of_lineEnd fun second head => next second head (beq_iff_eq.2 carriage)

/-- A line break leaves the margins waiting. -/
theorem broken (awaits : Awaits amount alone joined) :
    Awaits amount alone.broken joined.broken := by
  have next := awaits.moved ['\n']
  unfold Margin.broken
  rw [awaits.ended.lineBreak, (ended_of_none awaits.last).lineBreak]
  exact next

/-- At the head of a line, what the line holds decides whether blocks are closed here or later. -/
theorem lines_of_arrange (awaits : Awaits amount alone joined) {pieces : List Piece}
    (opens : (alone.lines pieces).Opens)
    (idle : isSignificant (content pieces) = false → (alone.arrange pieces).Opens →
      Scan.Resumes amount joined.depth (alone.arrange pieces) (joined.arrange pieces)) :
    Scan.Resumes amount joined.depth (alone.lines pieces) (joined.lines pieces) := by
  cases significant : isSignificant (content pieces) with
  | true => exact awaits.lines_significant significant opens
  | false =>
      unfold lines at opens ⊢
      rw [measure_idle significant] at opens ⊢
      rw [measure_idle significant]
      exact idle significant opens

/-- On a line without content, only the line break and the end of the text are noticed. -/
theorem arrange (awaits : Awaits amount alone joined) {pieces : List Piece}
    (tidy : Piece.Tidy pieces) (idle : isSignificant (content pieces) = false)
    (opens : (alone.arrange pieces).Opens) :
    Scan.Resumes amount joined.depth (alone.arrange pieces) (joined.arrange pieces) := by
  induction pieces generalizing alone joined with
  | nil => exact awaits.finish
  | cons piece rest inductionHypothesis =>
      obtain ⟨next, tidyRest⟩ := List.isChain_cons.1 tidy
      cases piece with
      | blank c =>
          exact inductionHypothesis (awaits.moved _) tidyRest (idle_of_blank idle next) opens
      | comment body =>
          have idleRest := idle_of_lineEnd fun second head => next second head rfl
          exact inductionHypothesis (awaits.moved _) tidyRest idleRest opens
      | lineBreak =>
          rw [arrange_lineBreak, (ended_of_none awaits.last).lineBreak] at opens ⊢
          rw [arrange_lineBreak, awaits.ended.lineBreak]
          exact awaits.broken.lines_of_arrange opens fun idleRest opensRest =>
            inductionHypothesis awaits.broken tidyRest idleRest opensRest
      | _ => cases idle

/-- A text that opens a scan comes after the dedents of the blocks that are open before it. -/
theorem lines (awaits : Awaits amount alone joined) {pieces : List Piece}
    (tidy : Piece.Tidy pieces) (opens : (alone.lines pieces).Opens) :
    Scan.Resumes amount joined.depth (alone.lines pieces) (joined.lines pieces) :=
  awaits.lines_of_arrange opens fun idle opensRest => awaits.arrange tidy idle opensRest

end Margin.Awaits

/-- A text without lexical errors leaves no string open. -/
theorem Margin.closed_of_arrange {margin : Margin} {pieces : List Piece}
    (errors : (margin.arrange pieces).errors = []) (body : List Char) :
    Piece.unclosed body ∉ pieces := by
  induction pieces generalizing margin with
  | nil => exact List.not_mem_nil
  | cons piece ahead inductionHypothesis =>
      obtain ⟨first, rest⟩ := List.append_eq_nil_iff.1 errors
      intro member
      obtain rfl | later := List.mem_cons.1 member
      · cases first
      · exact inductionHypothesis rest later

/-- A new line may start after pieces that end with a line break. -/
theorem Margin.startsLine_gather (margin : Margin) (before : List Piece) :
    StartsLine (margin.gather (before ++ [.lineBreak])).2.last := by
  induction before generalizing margin with
  | nil => exact (reaches_lineBreak margin { margin with line := margin.line + 1 } rfl rfl).2
  | cons piece before inductionHypothesis => exact inductionHypothesis _

section Texts

variable {before later : List Piece}

/-- Where a text ends with a line break, a line starts. -/
theorem startsLine_atEnd (ends : ∀ last ∈ before.getLast?, last = Piece.lineBreak) :
    StartsLine (Margin.atEnd before).last := by
  obtain rfl | ⟨front, last, rfl⟩ := before.eq_nil_or_concat
  · intro kind same
    cases same
  · obtain rfl := ends last (by simp)
    rw [List.concat_eq_append]
    exact Margin.startsLine_gather _ front

/-- After a line break, a text goes on from the margin that the text before it leaves. -/
theorem scanPieces_append (ends : ∀ last ∈ before.getLast?, last = Piece.lineBreak) :
    scanPieces (before ++ later) =
      ⟨gathered before, (scanPieces before).errors⟩ ++ (Margin.atEnd before).lines later := by
  obtain rfl | ⟨front, last, rfl⟩ := before.eq_nil_or_concat
  · rfl
  · obtain rfl := ends last (by simp)
    rw [List.concat_eq_append]
    unfold scanPieces
    simp only [Margin.measure_append later (Margin.content_ne_nil front)]
    rw [Margin.arrange_append, ← Scan.append_assoc]
    rfl

/-- The tokens of two texts in one are those of the first, the dedents of its open blocks and those
of the second on later lines. -/
theorem scanPieces_joined (ends : ∀ last ∈ before.getLast?, last = Piece.lineBreak)
    (errors : (scanPieces before).errors = []) (ended : (Margin.atEnd before).Ended)
    (tidy : Piece.Tidy later) (opens : (scanPieces later).Opens) :
    ∃ line, scanPieces (before ++ later) =
      .ofTokens (gathered before ++
        (List.replicate (Margin.atEnd before).depth (.layout .dedent line) ++
          (scanPieces later).tokens.map
            (Token.shift ((before.flatMap Piece.text).count '\n')))) := by
  have awaits : Margin.Awaits ((before.flatMap Piece.text).count '\n') .start
      (Margin.atEnd before) := by
    refine ⟨?_, rfl, rfl, ended⟩
    unfold Margin.atEnd
    rw [Margin.gather_line, Margin.lineAfter, Margin.measure_line]
  obtain ⟨⟨line, tokens⟩, none⟩ := awaits.lines tidy opens
  refine ⟨line, ?_⟩
  rw [scanPieces_append ends, errors]
  ext1
  · exact congrArg (gathered before ++ ·) tokens
  · exact none

/-- A text whose last line has ended closes its blocks at its end and adds nothing else. -/
theorem scanPieces_closing (ended : (Margin.atEnd before).Ended) :
    (scanPieces before).tokens = gathered before ++ (Margin.atEnd before).closing := by
  rw [scanPieces_tokens, ended.finish]

end Texts

end Offside
