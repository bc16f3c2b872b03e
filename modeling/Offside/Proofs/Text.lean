/-
This file proves where the lines of a text start and end, and what is left of a line without the
blanks at its end.
-/

import Offside.Proofs.Seam.Pieces
import Offside.Text.Blank
import Mathlib.Data.List.DropRight

namespace Offside.Text

open Piece (EndsLine AtLineEnd)

section Lines

variable {text body line : List Char}

/-- A character that ends no line joins the first line of the rest. -/
theorem lines_cons {c : Char} (other : c ≠ '\n') (rest : List Char) :
    lines (c :: rest) = match lines rest with
      | [] => [[c]]
      | line :: others => (c :: line) :: others := if_neg other

/-- A text without a line feed is one line or none. -/
theorem lines_of_notMem (free : '\n' ∉ text) :
    lines text = if text = [] then [] else [text] := by
  induction text with
  | nil => rfl
  | cons c rest inductionHypothesis =>
      rw [List.mem_cons, not_or] at free
      rw [lines_cons (Ne.symm free.1), inductionHypothesis free.2]
      cases rest <;> rfl

/-- The text up to a line feed is the first line. -/
theorem lines_append (free : '\n' ∉ body) (rest : List Char) :
    lines (body ++ '\n' :: rest) = (body ++ ['\n']) :: lines rest := by
  induction body with
  | nil => simp [lines]
  | cons c body inductionHypothesis =>
      rw [List.mem_cons, not_or] at free
      rw [List.cons_append, lines_cons (Ne.symm free.1), inductionHypothesis free.2]
      rfl

/-- A text is one line without a line feed, if it is not empty, or a line with one and a text after
it. -/
theorem lines_cases (text : List Char) :
    ('\n' ∉ text ∧ lines text = if text = [] then [] else [text]) ∨
      ∃ body rest, '\n' ∉ body ∧ text = body ++ '\n' :: rest ∧
        lines text = (body ++ ['\n']) :: lines rest := by
  by_cases feeds : '\n' ∈ text
  · obtain ⟨body, rest, rfl, free⟩ := List.eq_append_cons_of_mem feeds
    exact .inr ⟨body, rest, free, rfl, lines_append free rest⟩
  · exact .inl ⟨feeds, lines_of_notMem feeds⟩

/-- Nothing of the text is lost. -/
theorem flatten_lines (text : List Char) : (lines text).flatten = text := by
  induction text with
  | nil => rfl
  | cons c rest inductionHypothesis =>
      by_cases feed : c = '\n'
      · rw [lines, if_pos feed, List.flatten_cons, inductionHypothesis, List.singleton_append]
      · rw [lines_cons feed]
        cases cut : lines rest <;> simp_all

/-- A text that ends with a line feed has no line after it, and an empty text has no line. -/
def lineCount (text : List Char) : Nat :=
  text.count '\n' + if text.getLast?.all (· == '\n') then 0 else 1

/-- A text without a line feed counts one line or none. -/
theorem lineCount_of_notMem (free : '\n' ∉ text) :
    lineCount text = if text = [] then 0 else 1 := by
  rw [lineCount, List.count_eq_zero_of_not_mem free, Nat.zero_add]
  obtain rfl | ⟨front, last, rfl⟩ := text.eq_nil_or_concat
  · rfl
  · have other : last ≠ '\n' := by
      rintro rfl
      exact free (by simp)
    simp [other]

/-- The text up to a line feed counts one line. -/
theorem lineCount_append (free : '\n' ∉ body) (rest : List Char) :
    lineCount (body ++ '\n' :: rest) = 1 + lineCount rest := by
  have last : (body ++ '\n' :: rest).getLast?.all (· == '\n') = rest.getLast?.all (· == '\n') := by
    rw [List.getLast?_append, List.getLast?_cons]
    cases rest.getLast? <;> rfl
  rw [lineCount, lineCount, last, List.count_append, List.count_eq_zero_of_not_mem free,
    List.count_cons_self]
  omega

/-- The lines of a text are as many as it counts. -/
theorem length_lines (text : List Char) : (lines text).length = lineCount text := by
  -- Every line feed ends a line, so the feeds that are left measure the text.
  induction feeds : text.count '\n' generalizing text with
  | zero =>
      have free := List.count_eq_zero.1 feeds
      rw [lines_of_notMem free, lineCount_of_notMem free]
      split <;> rfl
  | succ count inductionHypothesis =>
      obtain ⟨free, -⟩ | ⟨body, rest, free, rfl, cut⟩ := lines_cases text
      · rw [List.count_eq_zero_of_not_mem free] at feeds
        cases feeds
      · rw [List.count_append, List.count_eq_zero_of_not_mem free, List.count_cons_self,
          Nat.zero_add] at feeds
        rw [cut, lineCount_append free, List.length_cons,
          inductionHypothesis rest (Nat.succ.inj feeds), Nat.add_comm]

/-- Two texts that end a line end one together. -/
theorem endsLine_append {first second : List Char} (one : EndsLine first) (two : EndsLine second) :
    EndsLine (first ++ second) := by
  intro last present
  rw [List.getLast?_append] at present
  cases found : second.getLast? with
  | none =>
      rw [found] at present
      exact one last present
  | some other =>
      rw [found] at present
      obtain rfl : other = last := Option.some.inj present
      exact two other found

/-- The body of a line stands between what comes before the line and what is left after the
body. -/
structure Stands (text : List Char) (index : Nat) (before body after : List Char) : Prop where
  whole : text = before ++ body ++ after
  index : before.count '\n' = index
  starts : EndsLine before
  single : '\n' ∉ body
  ends : AtLineEnd after

/-- Every line has a body, and at most a line feed after it. -/
theorem stands_of_lines {index : Nat} (found : (lines text)[index]? = some line) :
    ∃ body after, Stands text index ((lines text).take index).flatten body after ∧
      (line = body ∨ line = body ++ ['\n']) := by
  induction index generalizing text with
  | zero =>
      obtain ⟨free, cut⟩ | ⟨body, rest, free, rfl, cut⟩ := lines_cases text
      · rw [cut] at found
        by_cases empty : text = []
        · simp [empty] at found
        · have same : text = line := by simpa [empty] using found
          exact ⟨text, [], ⟨by simp, rfl, nofun, free, nofun⟩, .inl same.symm⟩
      · rw [cut] at found
        have same : body ++ ['\n'] = line := Option.some.inj found
        refine ⟨body, '\n' :: rest, ⟨by simp, rfl, nofun, free, ?_⟩, .inr same.symm⟩
        simp [AtLineEnd]
  | succ index inductionHypothesis =>
      obtain ⟨free, cut⟩ | ⟨body, rest, free, rfl, cut⟩ := lines_cases text
      · rw [cut] at found
        by_cases empty : text = [] <;> simp [empty] at found
      · rw [cut] at found
        obtain ⟨inner, after, stands, ends⟩ := inductionHypothesis found
        refine ⟨inner, after, ⟨?_, ?_, ?_, stands.single, stands.ends⟩, ends⟩
        · rw [cut]
          simpa using stands.whole
        · rw [cut]
          simpa [List.count_eq_zero_of_not_mem free] using stands.index
        · rw [cut]
          exact endsLine_append (by simp [EndsLine]) stands.starts

end Lines

section Trim

variable {text front gap word : List Char}

/-- What does not end in a blank is left when the blanks after it are stripped. -/
theorem trimEnd_append (blank : ∀ c ∈ gap, isBlank c = true)
    (ends : ∀ c ∈ front.getLast?, isBlank c = false) : trimEnd (front ++ gap) = front := by
  rw [trimEnd, dropEndWhile_eq_iff]
  exact ⟨⟨gap, rfl, blank⟩, ends⟩

/-- The blanks at the end of a text come after every other character. -/
theorem trimEnd_solid {c : Char} (solid : isBlank c = false) (front rest : List Char) :
    trimEnd (front ++ c :: rest) = front ++ c :: trimEnd rest := by
  have stops : (c :: front.reverse).dropWhile isBlank = c :: front.reverse := by simp [solid]
  rw [trimEnd, trimEnd, dropEndWhile, dropEndWhile, List.reverse_append, List.reverse_cons,
    List.append_assoc, List.singleton_append, List.dropWhile_append, stops]
  split
  next none => simp [List.isEmpty_iff.1 none]
  next => simp

/-- The last word is a suffix of the stripped text with a blank or nothing before it. -/
theorem lastWord_eq_iff (solid : ∀ c ∈ word, isBlank c = false) :
    lastWord text = word ↔ ∃ before, trimEnd text = before ++ word ∧
      ∀ c ∈ before.getLast?, isBlank c = true := by
  constructor
  · rintro rfl
    refine ⟨(trimEnd text).rdropWhile (!isBlank ·), List.rdropWhile_append_rtakeWhile.symm, ?_⟩
    intro c last
    obtain ⟨more, rfl⟩ := List.mem_getLast?_eq_getLast last
    simpa using List.rdropWhile_last_not (!isBlank ·) (trimEnd text) more
  · rintro ⟨before, whole, ends⟩
    have solids : ∀ c ∈ word.reverse, (!isBlank c) = true := by simpa using solid
    have stops : before.reverse.takeWhile (!isBlank ·) = [] := by
      obtain rfl | ⟨front, c, rfl⟩ := before.eq_nil_or_concat
      · rfl
      · simp [ends c (by simp)]
    rw [lastWord, whole, List.reverse_append, List.takeWhile_append_of_pos solids, stops,
      List.append_nil, List.reverse_reverse]

end Trim

end Offside.Text
