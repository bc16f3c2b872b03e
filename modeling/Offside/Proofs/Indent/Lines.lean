/-
This file describes the lines of a text and their indentation by its characters alone, and finds
them again in the pieces of the text.
-/

import Offside.Proofs.Lexeme.Scan
import Offside.Proofs.Seam.Layout

namespace Offside

/-- A line is free if it starts outside every string and is not joined to the line before it. Its
text runs from its start to the end of the whole text. -/
structure Line where
  number : Nat
  free : Bool
  text : List Char
deriving DecidableEq

namespace Line

/-- These are the spaces at the head of the line. -/
def spaces (line : Line) : Nat := (line.text.takeWhile (· == ' ')).length

/-- The line is free, and something other than a comment stands after its spaces. -/
def isSignificant (line : Line) : Bool :=
  line.free && match line.text.dropWhile (· == ' ') with
    | [] => false
    | '\n' :: _ => false
    | '\r' :: _ => false
    | '/' :: '/' :: _ => false
    | _ => true

def isAligned (line : Line) : Bool := line.spaces % indentWidth == 0

def isMisaligned (line : Line) : Bool := line.isSignificant && !line.isAligned

/-- Only a significant line that is aligned sets a depth. -/
def depth? (line : Line) : Option Nat :=
  if line.isSignificant && line.isAligned then some (line.spaces / indentWidth) else none

/-- This is the depth of the last line that sets one. -/
def depthAfter (depth : Nat) (lines : List Line) : Nat := (lines.filterMap depth?).getLast?.getD depth

/-- Each line opens blocks or closes blocks, to get from the depth before it to its own. -/
def marks : Nat → List Line → List Token
  | _, [] => []
  | depth, line :: rest =>
    let next := line.depth?.getD depth
    (if depth ≤ next then List.replicate (next - depth) (.layout .indent line.number)
      else List.replicate (depth - next) (.layout .dedent line.number)) ++ marks next rest

/-- Each misaligned line is an error. -/
def misalignments (lines : List Line) : List LexicalError :=
  (lines.filter isMisaligned).map fun line => ⟨.misalignedIndent, line.number⟩

/-- These lines start inside the given characters, which others follow. -/
def within (number : Nat) (free : Bool) (later : List Char) : List Char → List Line
  | [] => []
  | c :: rest =>
    if c = '\n' then ⟨number + 1, free, rest ++ later⟩ :: within (number + 1) free later rest
    else within number free later rest

end Line

/-- A line that starts inside the piece is free. -/
def Piece.freesLines : Piece → Bool
  | joint _ => false
  | unclosed _ => false
  | lexeme .string _ => false
  | _ => true

/-- These lines start inside the pieces. -/
def Line.after (number : Nat) : List Piece → List Line
  | [] => []
  | piece :: ahead =>
    within number piece.freesLines (ahead.flatMap Piece.text) piece.text ++
      after (number + piece.text.count '\n') ahead

/-- These are all the lines of a text. -/
def linesOf (source : String) : List Line :=
  ⟨1, true, source.toList⟩ :: Line.after 1 (Piece.split source.toList)

namespace Line

section Lists

variable {depth number : Nat} {free : Bool} {later text : List Char} {line : Line}

/-- The depth after two groups of lines is found by one group after the other. -/
theorem depthAfter_append (depth : Nat) (first second : List Line) :
    depthAfter depth (first ++ second) = depthAfter (depthAfter depth first) second := by
  unfold depthAfter
  rw [List.filterMap_append, List.getLast?_append]
  cases (second.filterMap depth?).getLast? <;> rfl

theorem depthAfter_cons (depth : Nat) (line : Line) (rest : List Line) :
    depthAfter depth (line :: rest) = depthAfter (line.depth?.getD depth) rest := by
  have single : depthAfter depth [line] = line.depth?.getD depth := by
    unfold depthAfter
    cases found : line.depth? <;> simp [found]
  rw [← single, ← depthAfter_append]
  rfl

/-- The marks of two groups of lines stand in a row. -/
theorem marks_append (depth : Nat) (first second : List Line) :
    marks depth (first ++ second) = marks depth first ++ marks (depthAfter depth first) second := by
  induction first generalizing depth with
  | nil => rfl
  | cons line rest inductionHypothesis =>
      simp only [List.cons_append, marks, inductionHypothesis, depthAfter_cons, List.append_assoc]

theorem misalignments_append (first second : List Line) :
    misalignments (first ++ second) = misalignments first ++ misalignments second := by
  simp [misalignments]

/-- No line starts inside a text without a line feed. -/
theorem within_of_notMem (free : Bool) (later : List Char) (absent : '\n' ∉ text) :
    within number free later text = [] := by
  induction text with
  | nil => rfl
  | cons c rest inductionHypothesis =>
      rw [List.mem_cons, not_or] at absent
      rw [within, if_neg (Ne.symm absent.1), inductionHypothesis absent.2]

/-- The lines are numbered by the line breaks before them. -/
theorem number_within (member : line ∈ within number free later text) :
    number < line.number ∧ line.number ≤ number + text.count '\n' := by
  induction text generalizing number with
  | nil => cases member
  | cons c rest inductionHypothesis =>
      unfold within at member
      split at member
      · next breaks =>
          rw [breaks, List.count_cons_self]
          obtain rfl | member := List.mem_cons.1 member
          · exact ⟨Nat.lt_succ_self number, by simp⟩
          · have := inductionHypothesis member
            omega
      · next other =>
          rw [List.count_cons_of_ne other]
          exact inductionHypothesis member

/-- A line that starts inside a piece is as free as the piece leaves it. -/
theorem free_within (member : line ∈ within number free later text) : line.free = free := by
  induction text generalizing number with
  | nil => cases member
  | cons c rest inductionHypothesis =>
      unfold within at member
      split at member
      · obtain rfl | member := List.mem_cons.1 member
        · rfl
        · exact inductionHypothesis member
      · exact inductionHypothesis member

/-- A line that starts inside the pieces has a later number. -/
theorem number_after {pieces : List Piece} (member : line ∈ after number pieces) :
    number < line.number := by
  induction pieces generalizing number with
  | nil => cases member
  | cons piece ahead inductionHypothesis =>
      obtain member | member := List.mem_append.1 member
      · exact (number_within member).1
      · have := inductionHypothesis member
        omega

/-- The lines inside a piece are numbered in a row. -/
theorem map_number_within (number : Nat) (free : Bool) (later text : List Char) :
    (within number free later text).map Line.number =
      List.range' (number + 1) (text.count '\n') := by
  induction text generalizing number with
  | nil => rfl
  | cons c rest inductionHypothesis =>
      by_cases breaks : c = '\n'
      · rw [within, if_pos breaks, breaks, List.count_cons_self, List.map_cons, inductionHypothesis,
          List.range'_succ]
      · rw [within, if_neg breaks, List.count_cons_of_ne breaks, inductionHypothesis]

/-- The lines inside the pieces are numbered in a row. -/
theorem map_number_after (number : Nat) (pieces : List Piece) :
    (after number pieces).map Line.number =
      List.range' (number + 1) ((pieces.flatMap Piece.text).count '\n') := by
  induction pieces generalizing number with
  | nil => rfl
  | cons piece ahead inductionHypothesis =>
      rw [after, List.map_append, map_number_within, inductionHypothesis, List.flatMap_cons,
        List.count_append, ← List.range'_append_1, Nat.add_right_comm]

/-- A line that is not free is not significant. -/
theorem isSignificant_of_not_free (bound : line.free = false) : line.isSignificant = false := by
  simp [isSignificant, bound]

/-- Lines that start inside a string, or after a tilde, leave no trace. -/
theorem unfree_idle {lines : List Line} (unfree : ∀ line ∈ lines, line.free = false) (depth : Nat) :
    depthAfter depth lines = depth ∧ marks depth lines = [] ∧ misalignments lines = [] := by
  induction lines with
  | nil => exact ⟨rfl, rfl, rfl⟩
  | cons line rest inductionHypothesis =>
      rw [List.forall_mem_cons] at unfree
      have idle := isSignificant_of_not_free unfree.1
      have none : line.depth? = none := by simp [depth?, idle]
      obtain ⟨sameDepth, noMarks, noErrors⟩ := inductionHypothesis unfree.2
      refine ⟨?_, ?_, ?_⟩
      · rw [depthAfter_cons, none]
        exact sameDepth
      · simp [marks, none, noMarks]
      · simpa [misalignments, isMisaligned, idle] using noErrors

end Lists

end Line

namespace Piece

variable {c : Char} {rest : List Char}

/-- A text is cut into its first piece and the pieces of the rest. -/
theorem split_cons (c : Char) (rest : List Char) :
    split (c :: rest) = (cut c rest).1 :: split (cut c rest).2 := by
  rw [split]

/-- A blank piece is the character that was cut. -/
theorem eq_of_cut_blank {d : Char} (piece : (cut c rest).1 = blank d) : d = c := by
  have whole := cut_text c rest
  rw [piece] at whole
  exact (List.cons.inj whole).1

/-- Digits hold no line feed. -/
theorem newline_notMem_of_isDigit {text : List Char} (digits : ∀ d ∈ text, d.isDigit = true) :
    '\n' ∉ text :=
  fun member => absurd (digits _ member) (by decide)

/-- A word holds no line feed. -/
theorem newline_notMem_of_word {text : List Char} (word : Word text) : '\n' ∉ text := by
  cases text with
  | nil => simp
  | cons first others =>
      obtain ⟨start, parts⟩ := word
      intro member
      obtain same | member := List.mem_cons.1 member
      · rw [← same] at start
        exact absurd start (by decide)
      · exact absurd (parts _ member) (by decide)

/-- Only a string is a lexeme that may hold a line break. -/
theorem newline_notMem_of_denotes {text : List Char} {kind : Kind} {literal : Option Literal}
    (denotes : Denotes text kind literal) (plain : kind ≠ .string) : '\n' ∉ text := by
  cases denotes with
  | symbol symbol => cases symbol <;> decide
  | whole digits => exact newline_notMem_of_isDigit digits.all
  | fraction whole digits =>
      simp only [List.mem_append, List.mem_cons, not_or]
      exact ⟨newline_notMem_of_isDigit whole.all, by decide,
        newline_notMem_of_isDigit digits.all⟩
  | string => exact absurd rfl plain
  | keyword keyword => exact newline_notMem_of_word keyword.word
  | name word => exact newline_notMem_of_word word

/-- Apart from strings and joints, a line break is a piece of its own. -/
theorem newline_notMem_of_cut (frees : (cut c rest).1.freesLines = true)
    (other : (cut c rest).1 ≠ lineBreak) : '\n' ∉ (cut c rest).1.text := by
  have start : c ≠ '\n' := by
    rintro rfl
    exact other rfl
  have whole := cut_text c rest
  have justified := cut_justified c rest
  cases piece : (cut c rest).1 with
  | blank d =>
      rw [eq_of_cut_blank piece]
      simpa [text] using start.symm
  | stray d =>
      rw [piece] at whole
      rw [(List.cons.inj whole).1]
      simpa [text] using start.symm
  | comment body =>
      rw [piece] at justified
      cases justified with
      | comment absent => simpa [text] using absent
  | lexeme kind text =>
      rw [piece] at justified frees
      apply newline_notMem_of_denotes justified
      rintro rfl
      cases frees
  | lineBreak => exact absurd piece other
  | joint carriage =>
      rw [piece] at frees
      cases frees
  | unclosed body =>
      rw [piece] at frees
      cases frees

end Piece

namespace Margin

open Piece

/-- The spaces at the head of the pieces are those at the head of the text. -/
theorem head_of_split (text : List Char) : spaces (split text) = (text.takeWhile (· == ' ')).length ∧
    content (split text) = split (text.dropWhile (· == ' ')) := by
  induction text with
  | nil => simp [split, spaces, content]
  | cons c rest inductionHypothesis =>
      unfold spaces content at *
      by_cases space : c = ' '
      · subst space
        have first : split (' ' :: rest) = blank ' ' :: split rest := split_cons ' ' rest
        simpa [first] using inductionHypothesis
      · have other : (cut c rest).1 ≠ blank ' ' := fun same => space (eq_of_cut_blank same).symm
        have stop : ((cut c rest).1 == blank ' ') = false := by simpa using other
        simp [split_cons, stop, space]

/-- The first piece of a line shows what its first characters show. -/
theorem isSignificant_split (text : List Char) :
    isSignificant (content (split text)) = (⟨0, true, text⟩ : Line).isSignificant := by
  rw [(head_of_split text).2, Line.isSignificant, Bool.true_and]
  dsimp only
  generalize text.dropWhile (· == ' ') = head
  split
  · rw [split]
    rfl
  · rw [split_cons]
    rfl
  · rw [split_cons]
    rfl
  · rw [split_cons]
    rfl
  · next noEnd noFeed noReturn noComment =>
      cases head with
      | nil => exact (noEnd rfl).elim
      | cons c rest =>
          have whole := cut_text c rest
          rw [split_cons]
          cases piece : (cut c rest).1 with
          | lineBreak =>
              rw [piece] at whole
              exact (noFeed _ whole.symm).elim
          | comment body =>
              rw [piece] at whole
              exact (noComment _ whole.symm).elim
          | blank d =>
              rw [piece] at whole
              have other : d ≠ '\r' := by
                rintro rfl
                exact noReturn _ whole.symm
              exact bne_iff_ne.2 other
          | joint | lexeme | stray | unclosed => rfl

/-- The steps between two depths are block marks of one kind. -/
theorem steps_eq (source target line : Nat) : steps source target line =
    if source ≤ target then List.replicate (target - source) (.layout .indent line)
    else List.replicate (source - target) (.layout .dedent line) := by
  unfold steps
  split
  · next deeper => simp [Nat.sub_eq_zero_of_le deeper]
  · next shallower => simp [Nat.sub_eq_zero_of_le (Nat.le_of_not_le shallower)]

/-- What stands at the head of a line sets its depth. -/
theorem measure_split (margin : Margin) (text : List Char) :
    let line : Line := ⟨margin.line, true, text⟩
    (margin.measure (split text)).1 = ⟨Line.marks margin.depth [line], Line.misalignments [line]⟩ ∧
      (margin.measure (split text)).2.depth = Line.depthAfter margin.depth [line] := by
  intro line
  have significance : isSignificant (content (split text)) = line.isSignificant :=
    isSignificant_split text
  have width : spaces (split text) = line.spaces := (head_of_split text).1
  have depth : Line.depthAfter margin.depth [line] = line.depth?.getD margin.depth := by
    rw [Line.depthAfter_cons]
    rfl
  rw [depth]
  cases significant : line.isSignificant with
  | false =>
      rw [significant] at significance
      have none : line.depth? = none := by simp [Line.depth?, significant]
      rw [measure_idle significance, none]
      simp [Line.marks, Line.misalignments, Line.isMisaligned, none, significant, Scan.empty]
  | true =>
      rw [significant] at significance
      by_cases aligned : line.spaces % indentWidth = 0
      · have some : line.depth? = some (line.spaces / indentWidth) := by
          simp [Line.depth?, significant, Line.isAligned, aligned]
        rw [measure_aligned significance (by rwa [width]), some, width]
        refine ⟨?_, rfl⟩
        simp [Line.marks, Line.misalignments, Line.isMisaligned, some, Line.isAligned, aligned,
          Scan.ofTokens, steps_eq, line]
      · have none : line.depth? = none := by
          simp [Line.depth?, significant, Line.isAligned, aligned]
        rw [measure_misaligned significance (by rwa [width]), none]
        simp [Line.marks, Line.misalignments, Line.isMisaligned, none, significant, Line.isAligned,
          aligned, Scan.ofError, line]

end Margin

end Offside
