/-
This file proves that the entries of an interactive session divide its input: no line is lost, none
is read twice, and the rules for where an entry ends leave only one way to divide.
-/

import Offside.CommandLine
import Offside.Proofs.Text
import Mathlib.Data.List.ReduceOption

namespace Offside.Entry

/-- A passage is what is read for one entry: a line that is a whole entry, or a line that opens one
and the lines after it. An open entry stops at a blank line, or at the end of the input. -/
inductive Passage where
  | single (line : String) (whole : needsContinuation line = false)
  | opened (first : String) (others : List String) (stop : Option String)
      (opens : needsContinuation first = true)
      (solid : ∀ line ∈ others, isBlankLine line = false)
      (closes : ∀ blank ∈ stop, isBlankLine blank = true)

namespace Passage

/-- These lines make up the entry. The blank line at which it stops is not one of them. -/
def content : Passage → List String
  | single line _ => [line]
  | opened first others _ _ _ _ => first :: others

def text (passage : Passage) : String := linesText passage.content

/-- An attempt to read a line gives the next line, or none at the end of the input. -/
def attempts : Passage → List (Option String)
  | single line _ => [some line]
  | opened first others stop _ _ _ => (first :: others).map some ++ [stop]

/-- These lines of the input belong to the passage. -/
def lines (passage : Passage) : List String := passage.attempts.reduceOption

end Passage

/-- A prompt is written before each attempt, and the first one starts the entry. -/
def promptsOf : List (Option String) → List String
  | [] => []
  | _ :: later => ">>> " :: later.map fun _ => "... "

/-- The passages are all of the lines, in order. Only the last one may meet the end of the input. -/
structure Divides (lines : List String) (passages : List Passage) : Prop where
  whole : passages.flatMap Passage.lines = lines
  last : ∀ passage ∈ passages.dropLast, none ∉ passage.attempts

namespace Passage

theorem lines_single (line : String) (whole : needsContinuation line = false) :
    (single line whole).lines = [line] := rfl

/-- An open passage holds its lines and the blank one at which it stops. -/
theorem lines_opened {first : String} {others : List String} {stop : Option String}
    (opens : needsContinuation first = true) (solid : ∀ line ∈ others, isBlankLine line = false)
    (closes : ∀ blank ∈ stop, isBlankLine blank = true) :
    (opened first others stop opens solid closes).lines = first :: (others ++ stop.toList) := by
  have all := List.reduceOption_concat ((first :: others).map some) stop
  rw [List.concat_eq_append] at all
  rw [lines, attempts, all]
  simp [List.reduceOption]

/-- No passage is empty. -/
theorem lines_ne_nil (passage : Passage) : passage.lines ≠ [] := by
  cases passage with
  | single => simp [lines_single]
  | opened => simp [lines_opened]

/-- The lines after the first one are those before the next blank line. -/
theorem takeWhile_solid {others rest : List String} {stop : Option String}
    (solid : ∀ line ∈ others, isBlankLine line = false)
    (closes : ∀ blank ∈ stop, isBlankLine blank = true) (ends : stop = none → rest = []) :
    (others ++ (stop.toList ++ rest)).takeWhile (!isBlankLine ·) = others := by
  rw [List.takeWhile_append_of_pos (by simpa using solid)]
  cases stop with
  | none => simp [ends rfl]
  | some blank => simp [closes blank rfl]

/-- A line does not both open an entry and make up a whole one. -/
theorem single_ne_opened {line first : String} {others rest further : List String}
    {stop : Option String} {whole : needsContinuation line = false}
    {opens : needsContinuation first = true} {solid : ∀ line ∈ others, isBlankLine line = false}
    {closes : ∀ blank ∈ stop, isBlankLine blank = true} :
    (single line whole).lines ++ rest ≠
      (opened first others stop opens solid closes).lines ++ further := by
  rw [lines_single, lines_opened]
  intro same
  obtain ⟨rfl, -⟩ := List.cons.inj same
  rw [whole] at opens
  cases opens

/-- The lines of the input determine the passage at their start. -/
theorem eq_of_lines {first second : Passage} {rest further : List String}
    (same : first.lines ++ rest = second.lines ++ further)
    (ends : none ∈ first.attempts → rest = []) (endsToo : none ∈ second.attempts → further = []) :
    first = second := by
  cases first with
  | single line whole =>
      cases second with
      | single other wholeToo =>
          obtain ⟨rfl, -⟩ := List.cons.inj same
          rfl
      | opened => exact absurd same single_ne_opened
  | opened line others stop opens solid closes =>
      cases second with
      | single => exact absurd same.symm single_ne_opened
      | opened other more stopToo opensToo solidToo closesToo =>
          rw [lines_opened, lines_opened, List.cons_append, List.cons_append, List.append_assoc,
            List.append_assoc] at same
          obtain ⟨rfl, later⟩ := List.cons.inj same
          replace ends : stop = none → rest = [] := fun none => ends (by simp [attempts, none])
          replace endsToo : stopToo = none → further = [] := fun none =>
            endsToo (by simp [attempts, none])
          -- The next blank line ends both, so they go equally far.
          obtain rfl : others = more := by
            rw [← takeWhile_solid solid closes ends, later,
              takeWhile_solid solidToo closesToo endsToo]
          have stops := List.append_cancel_left later
          obtain rfl : stop = stopToo := by
            cases stop <;> cases stopToo <;> simp_all
          rfl

end Passage

namespace Divides

variable {lines rest : List String} {passage : Passage} {passages others : List Passage}

theorem nil : Divides [] [] := ⟨rfl, by simp⟩

/-- Without lines there is no passage. -/
theorem eq_nil (divides : Divides [] passages) : passages = [] := by
  cases passages with
  | nil => rfl
  | cons passage later =>
      exact absurd (List.append_eq_nil_iff.1 divides.whole).1 passage.lines_ne_nil

/-- A passage before others divides its lines and theirs. -/
theorem cons (divides : Divides rest passages) (ends : none ∈ passage.attempts → rest = []) :
    Divides (passage.lines ++ rest) (passage :: passages) where
  whole := by rw [List.flatMap_cons, divides.whole]
  last := by
    cases passages with
    | nil => simp
    | cons next later =>
        rw [List.dropLast_cons_cons, List.forall_mem_cons]
        refine ⟨fun meets => ?_, divides.last⟩
        rw [ends meets] at divides
        cases divides.eq_nil

/-- The passages after the first divide the lines after it. -/
theorem tail (divides : Divides lines (passage :: passages)) :
    Divides (passages.flatMap Passage.lines) passages := by
  refine ⟨rfl, fun other member => divides.last other ?_⟩
  cases passages with
  | nil => cases member
  | cons => exact List.mem_cons_of_mem _ member

/-- Nothing comes after a passage that meets the end of the input. -/
theorem ends (divides : Divides lines (passage :: passages)) (meets : none ∈ passage.attempts) :
    passages.flatMap Passage.lines = [] := by
  cases passages with
  | nil => rfl
  | cons => exact absurd meets (divides.last _ List.mem_cons_self)

/-- There is only one way to divide the lines. -/
theorem unique (divides : Divides lines passages) (again : Divides lines others) :
    others = passages := by
  induction passages generalizing lines others with
  | nil =>
      obtain rfl : [] = lines := divides.whole
      exact again.eq_nil
  | cons passage passages inductionHypothesis =>
      cases others with
      | nil =>
          obtain rfl : [] = lines := again.whole
          exact divides.eq_nil.symm
      | cons other others =>
          have same := again.whole.trans divides.whole.symm
          rw [List.flatMap_cons, List.flatMap_cons] at same
          obtain rfl := Passage.eq_of_lines same again.ends divides.ends
          have later := again.tail
          rw [List.append_cancel_left same] at later
          rw [inductionHypothesis divides.tail later]

end Divides

section Readings

theorem linesText_cons (line : String) (lines : List String) :
    linesText (line :: lines) = line ++ "\n" ++ linesText lines := by
  rw [linesText, List.map_cons, String.join_cons]
  rfl

/-- An open entry takes all lines before the next blank one. -/
theorem readFrom_open (text : String) (lines : List String) :
    ∃ (others : List String) (stop : Option String) (rest : List String),
      (∀ line ∈ others, isBlankLine line = false) ∧ (∀ blank ∈ stop, isBlankLine blank = true) ∧
      (stop = none → rest = []) ∧
      lines.map stripLineEnd = others ++ (stop.toList ++ rest.map stripLineEnd) ∧
      readFrom (some text) lines = ⟨some (text ++ linesText others),
        (others.map some ++ [stop]).map fun _ => "... ", rest⟩ := by
  induction lines generalizing text with
  | nil =>
      refine ⟨[], none, [], by simp, by simp, fun _ => rfl, rfl, ?_⟩
      simp [readFrom, linesText, prompt]
  | cons line lines inductionHypothesis =>
      rw [readFrom, readLine]
      dsimp only
      by_cases blank : isBlankLine (stripLineEnd line) = true
      · refine ⟨[], some (stripLineEnd line), lines, by simp, by simpa using blank, by simp, rfl, ?_⟩
        simp [blank, linesText, prompt]
      · obtain ⟨others, stop, rest, solid, closes, ends, whole, later⟩ :=
          inductionHypothesis (text ++ stripLineEnd line ++ "\n")
        rw [Bool.not_eq_true] at blank
        refine ⟨stripLineEnd line :: others, stop, rest, ?_, closes, ends, ?_, ?_⟩
        · exact List.forall_mem_cons.2 ⟨blank, solid⟩
        · rw [List.map_cons, whole, List.cons_append]
        · simp only [blank, Bool.false_eq_true, if_false]
          rw [later]
          simp [linesText_cons, prompt, String.append_assoc]

/-- As long as there are lines, a reading takes the passage at their start. -/
theorem read_cons (line : String) (lines : List String) :
    ∃ (passage : Passage) (rest : List String),
      read (line :: lines) = ⟨some passage.text, promptsOf passage.attempts, rest⟩ ∧
      (line :: lines).map stripLineEnd = passage.lines ++ rest.map stripLineEnd ∧
      (none ∈ passage.attempts → rest.map stripLineEnd = []) := by
  rw [read, readFrom, readLine]
  dsimp only
  cases needs : needsContinuation (stripLineEnd line) with
  | false =>
      refine ⟨.single (stripLineEnd line) needs, lines, ?_, rfl, ?_⟩
      · simp [Passage.text, Passage.content, Passage.attempts, linesText, promptsOf, prompt]
      · simp [Passage.attempts]
  | true =>
      obtain ⟨others, stop, rest, solid, closes, ends, whole, later⟩ :=
        readFrom_open (stripLineEnd line ++ "\n") lines
      refine ⟨.opened (stripLineEnd line) others stop needs solid closes, rest, ?_, ?_, ?_⟩
      · simp [later, Passage.text, Passage.content, Passage.attempts, linesText_cons, promptsOf,
          prompt]
      · rw [Passage.lines_opened, List.map_cons, whole, List.cons_append, List.append_assoc]
      · intro meets
        have none : stop = none := by simpa [Passage.attempts, eq_comm] using meets
        rw [ends none, List.map_nil]

/-- The readings take one passage after the other. -/
theorem readings_cover (lines : List String) :
    ∃ passages, Divides (lines.map stripLineEnd) passages ∧
      (readings lines).map Reading.entry = passages.map (some ∘ Passage.text) ++ [none] ∧
      (readings lines).map Reading.prompts =
        (passages.map Passage.attempts ++ [[none]]).map promptsOf := by
  fun_induction readings lines with
  | case1 lines found =>
      cases lines with
      | nil => exact ⟨[], .nil, rfl, rfl⟩
      | cons line lines =>
          obtain ⟨passage, rest, taken, -⟩ := read_cons line lines
          rw [taken] at found
          cases found
  | case2 lines text found inductionHypothesis =>
      cases lines with
      | nil => cases found
      | cons line lines =>
          obtain ⟨passage, rest, taken, whole, ends⟩ := read_cons line lines
          rw [taken] at inductionHypothesis ⊢
          obtain ⟨passages, divides, entries, prompts⟩ := inductionHypothesis
          refine ⟨passage :: passages, ?_, ?_, ?_⟩
          · rw [whole]
            exact divides.cons ends
          · rw [List.map_cons, entries]
            rfl
          · rw [List.map_cons, prompts]
            rfl

end Readings

/-- The lines of the input are all read, each once and in order. Every passage gives one entry, and
every attempt to read a line has its prompt. After the last passage one more attempt finds the end
of the input, and there is no entry. -/
theorem readings_divide (input : String) :
    let lines := (Text.lines input.toList).map String.ofList
    String.join lines = input ∧
      ∃ passages, Divides (lines.map stripLineEnd) passages ∧
        (∀ others, Divides (lines.map stripLineEnd) others → others = passages) ∧
        (readings lines).map Reading.entry = passages.map (some ∘ Passage.text) ++ [none] ∧
        (readings lines).map Reading.prompts =
          (passages.map Passage.attempts ++ [[none]]).map promptsOf := by
  intro lines
  constructor
  · rw [← String.toList_inj, String.toList_join, List.flatMap_map]
    simpa using Text.flatten_lines input.toList
  · obtain ⟨passages, divides, entries, prompts⟩ := readings_cover lines
    exact ⟨passages, divides, fun _ => divides.unique, entries, prompts⟩

example : (readings ["x =\n", "1\r\n", " \n", "y"]).map Reading.entry =
    [some "x =\n1\n", some "y\n", none] := by decide +kernel

end Offside.Entry
