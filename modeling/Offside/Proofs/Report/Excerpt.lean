/-
This file proves that an excerpt shows the line on which a token stands: the lines of a report are
counted as the lines of a scan are.
-/

import Offside.Excerpt
import Offside.Proofs.Lexeme.Rescan
import Offside.Proofs.Report.Numbering
import Offside.Proofs.Text

namespace Offside

namespace Excerpt

open Piece (EndsLine AtLineEnd)

section Bytes

@[simp]
theorem byteLength_nil : byteLength [] = 0 := rfl

@[simp]
theorem byteLength_cons (c : Char) (rest : List Char) :
    byteLength (c :: rest) = c.utf8Size + byteLength rest := rfl

/-- The bytes of two texts in a row add up. -/
@[simp]
theorem byteLength_append (first second : List Char) :
    byteLength (first ++ second) = byteLength first + byteLength second := by
  induction first with
  | nil => simp
  | cons c rest inductionHypothesis => simp [inductionHypothesis, Nat.add_assoc]

/-- The bytes are those of the text as a string. -/
theorem byteLength_eq (text : List Char) : byteLength text = (String.ofList text).utf8ByteSize := by
  induction text with
  | nil => rfl
  | cons c rest inductionHypothesis =>
      have whole : String.ofList (c :: rest) = String.singleton c ++ String.ofList rest := by
        apply String.toList_inj.1
        simp
      rw [byteLength_cons, inductionHypothesis, whole, String.utf8ByteSize_append,
        String.utf8ByteSize_singleton]

/-- The start of a text ends where a character of the whole text ends. -/
theorem isValid_byteLength {source : String} {before after : List Char}
    (whole : source.toList = before ++ after) :
    String.Pos.Raw.IsValid source ⟨byteLength before⟩ := by
  rw [String.Pos.Raw.isValid_iff_exists_append]
  refine ⟨String.ofList before, String.ofList after, ?_, ?_⟩
  · apply String.toList_inj.1
    simp [whole]
  · rw [byteLength_eq]
    rfl

end Bytes

/-- The content of the line with this number stands between the text before the line and the
carriage returns at its end. -/
structure Frames (source : List Char) (number : Nat) (before content returns after : List Char) :
    Prop where
  whole : source = before ++ content ++ returns ++ after
  counted : before.count '\n' + 1 = number
  starts : EndsLine before
  single : '\n' ∉ content
  trimmed : ∀ last ∈ content.getLast?, last ≠ '\r'
  carriages : ∀ c ∈ returns, c = '\r'
  ends : AtLineEnd after
  shown : line? source number = some content

section Lines

variable {source : List Char} {number start stop : Nat}

/-- A line end is a line feed or a carriage return. -/
theorem isLineEnd_iff {c : Char} : Text.isLineEnd c = true ↔ c = '\n' ∨ c = '\r' := by
  simp [Text.isLineEnd]

/-- A line is shown up to the carriage returns before its line feed. -/
theorem frames_of_line? {index : Nat} {content : List Char}
    (shown : line? source (index + 1) = some content) : ∃ returns after,
      Frames source (index + 1) ((Text.lines source).take index).flatten content returns after := by
  obtain ⟨line, found, trims⟩ := Option.map_eq_some_iff.1 shown
  obtain ⟨body, after, stands, ends⟩ := Text.stands_of_lines found
  have same : body.rdropWhile Text.isLineEnd = content := by
    rw [← trims]
    obtain rfl | rfl := ends
    · rfl
    · exact (List.rdropWhile_concat_pos _ body '\n' rfl).symm
  have parts : content ++ body.rtakeWhile Text.isLineEnd = body := by
    rw [← same]
    exact List.rdropWhile_append_rtakeWhile
  have single := stands.single
  rw [← parts, List.mem_append, not_or] at single
  refine ⟨body.rtakeWhile Text.isLineEnd, after, ?_, ?_, stands.starts, single.1, ?_, ?_,
    stands.ends, shown⟩
  · rw [List.append_assoc _ content, parts]
    exact stands.whole
  · rw [stands.index]
  · intro last present
    rw [← same] at present
    obtain ⟨more, rfl⟩ := List.mem_getLast?_eq_getLast present
    have inside := List.rdropWhile_last_not Text.isLineEnd body more
    rw [isLineEnd_iff, not_or] at inside
    exact inside.2
  · intro c member
    obtain feed | carriage := isLineEnd_iff.1 (List.mem_rtakeWhile_imp member)
    · exact absurd (feed ▸ member) single.2
    · exact carriage

/-- Only the lines of a text have a range. -/
theorem range?_eq_none_iff (source : List Char) (number : Nat) :
    range? source number = none ↔ number = 0 ∨ Text.lineCount source < number := by
  cases number with
  | zero => simp [range?]
  | succ index =>
      rw [← Text.length_lines]
      simp only [range?, line?, Option.map_eq_none_iff, List.getElem?_eq_none_iff]
      omega

/-- A range frames the content of its line. -/
theorem frames_of_range? (found : range? source number = some (start, stop)) :
    ∃ before content returns after, Frames source number before content returns after ∧
      start = byteLength before ∧ stop = byteLength (before ++ content) := by
  cases number with
  | zero => cases found
  | succ index =>
      obtain ⟨content, shown, range⟩ := Option.map_eq_some_iff.1 found
      obtain ⟨returns, after, frames⟩ := frames_of_line? shown
      obtain ⟨rfl, rfl⟩ := Prod.mk.inj range
      exact ⟨_, content, returns, after, frames, rfl, (byteLength_append _ _).symm⟩

/-- The line of a character that is no line end holds the place of that character. -/
theorem Frames.holds {before content returns after opening rest : List Char} {c : Char}
    (frames : Frames source number before content returns after)
    (whole : source = opening ++ c :: rest) (noFeed : c ≠ '\n') (noReturn : c ≠ '\r')
    (line : opening.count '\n' + 1 = number) :
    byteLength before ≤ byteLength opening ∧
      byteLength opening < byteLength (before ++ content) := by
  have feeds : before.count '\n' = opening.count '\n' := by
    have := frames.counted
    omega
  have parts := frames.whole.symm.trans whole
  rw [List.append_assoc, List.append_assoc] at parts
  obtain ⟨others, later⟩ | ⟨middle, rfl, further⟩ := append_cons_cases parts
  · -- The line would start after the character, with no line feed between them.
    exfalso
    have more : c :: others ≠ [] := List.cons_ne_nil _ _
    have ends := (frames.starts.suffix ⟨opening, later.symm⟩).mem more
    rw [later, List.count_append] at feeds
    have := List.count_pos_iff.2 ends
    omega
  · have single : '\n' ∉ middle := by
      rw [List.count_append] at feeds
      exact List.count_eq_zero.1 (by omega)
    have inContent : ∃ others, content = middle ++ c :: others := by
      obtain found | ⟨beyond, rfl, tail⟩ := append_cons_cases further
      · exact found
      · exfalso
        obtain ⟨others, found⟩ | ⟨others, rfl, found⟩ := append_cons_cases tail
        · exact noReturn (frames.carriages c (by simp [found]))
        · cases others with
          | nil => exact noFeed (frames.ends c (by rw [found]; rfl))
          | cons feed others =>
              obtain rfl := frames.ends feed (by rw [found]; rfl)
              simp at single
    obtain ⟨others, rfl⟩ := inContent
    have positive := c.utf8Size_pos
    simp only [byteLength_append, byteLength_cons]
    omega

/-- A character that ends no line stands on one of the lines that are counted. -/
theorem lt_lineCount (opening rest : List Char) {c : Char} (noFeed : c ≠ '\n') :
    opening.count '\n' < Text.lineCount (opening ++ c :: rest) := by
  rw [Text.lineCount, List.count_append, List.count_cons_of_ne noFeed]
  split
  next ends =>
    have last : EndsLine (c :: rest) := by
      intro last present
      rw [List.getLast?_append, present] at ends
      simpa using ends
    have member := (last.tail noFeed).1.mem (last.tail noFeed).2
    have := List.count_pos_iff.2 member
    omega
  · omega

/-- Every place that is no line end lies in the range of its line. -/
theorem range?_of_place {opening rest : List Char} {c : Char}
    (whole : source = opening ++ c :: rest) (noFeed : c ≠ '\n') (noReturn : c ≠ '\r') :
    ∃ start stop, range? source (1 + opening.count '\n') = some (start, stop) ∧
      start ≤ byteLength opening ∧ byteLength opening < stop := by
  have present : range? source (1 + opening.count '\n') ≠ none := by
    have := lt_lineCount opening rest noFeed
    rw [Ne, range?_eq_none_iff, whole]
    omega
  obtain ⟨⟨start, stop⟩, found⟩ := Option.ne_none_iff_exists'.1 present
  obtain ⟨before, content, returns, after, frames, rfl, rfl⟩ := frames_of_range? found
  exact ⟨_, _, found, frames.holds whole noFeed noReturn (Nat.add_comm _ _)⟩

end Lines

end Excerpt

/-- No lexeme starts with a line end. -/
theorem Denotes.head_inLine {text rest : List Char} {kind : Kind} {literal : Option Literal}
    {c : Char} (denotes : Denotes text kind literal) (head : text = c :: rest) :
    c ≠ '\n' ∧ c ≠ '\r' := by
  rw [← not_or]
  intro ends
  have outside : Piece.isNamePart c = false ∧ c ≠ '.' ∧ c ≠ '"' := by
    obtain rfl | rfl := ends <;> decide
  have member : c ∈ text := by simp [head]
  obtain ⟨symbol, same⟩ | ⟨body, -, same⟩ :=
    denotes.symbol_or_quoted member outside.1 outside.2.1
  · rw [head] at same
    obtain rfl | rfl := ends <;> cases symbol <;> simp [Symbol.text] at same
  · exact outside.2.2 (List.cons.inj (head.symm.trans same)).1

namespace Excerpt

/-- The lines that reports show are the lines that a scan counts. -/
structure Agrees (source : String) : Prop where
  /-- Every line of the text has a range, and nothing else has one. -/
  absent : ∀ number,
    range? source.toList number = none ↔ number = 0 ∨ Text.lineCount source.toList < number
  /-- A range starts and ends between two characters, with the content of its line inside. -/
  ranges : ∀ number start stop, range? source.toList number = some (start, stop) →
    String.Pos.Raw.IsValid source ⟨start⟩ ∧ String.Pos.Raw.IsValid source ⟨stop⟩ ∧
      ∃ before content returns after,
        Frames source.toList number before content returns after ∧
          start = byteLength before ∧ stop = byteLength (before ++ content)
  /-- The first byte of a token lies in the range of the line that the token names. -/
  tokens : ∀ front token back, (scan source).tokens = front ++ token :: back →
    token.kind.isLayout = false → ∃ before text after start stop,
      Piece.split source.toList = before ++ .lexeme token.kind text :: after ∧
        token.lexeme = String.ofList text ∧
        spellingsOf front = before.flatMap Piece.spellings ∧
        range? source.toList token.line = some (start, stop) ∧
        start ≤ byteLength (before.flatMap Piece.text) ∧
        byteLength (before.flatMap Piece.text) < stop

end Excerpt

/-- Reports show the lines of a text as its scan counts them. The range of a line runs from its
start to the carriage returns at its end, and every token starts in the range of its line. -/
theorem excerpt_agrees (source : String) : Excerpt.Agrees source where
  absent := Excerpt.range?_eq_none_iff source.toList
  ranges number start stop found := by
    obtain ⟨before, content, returns, after, frames, rfl, rfl⟩ := Excerpt.frames_of_range? found
    have whole : source.toList = before ++ content ++ (returns ++ after) := by
      rw [frames.whole, List.append_assoc (before ++ content)]
    exact ⟨Excerpt.isValid_byteLength (whole.trans (List.append_assoc ..)),
      Excerpt.isValid_byteLength whole, before, content, returns, after, frames, rfl, rfl⟩
  tokens front token back split plain := by
    obtain ⟨before, text, after, pieces, lexeme, spelt, line⟩ :=
      (numbered_of_scan split).written plain
    have whole := Piece.split_text source.toList
    rw [pieces, List.flatMap_append, List.flatMap_cons] at whole
    have member : token ∈ (scan source).tokens := by simp [split]
    have denotes : Denotes token.lexeme.toList token.kind token.literal :=
      genuine_of_scan member plain
    rw [lexeme, String.toList_ofList] at denotes
    obtain ⟨c, rest, head⟩ := List.exists_cons_of_ne_nil denotes.ne_nil
    obtain ⟨noFeed, noReturn⟩ := denotes.head_inLine head
    have place : source.toList =
        before.flatMap Piece.text ++ c :: (rest ++ after.flatMap Piece.text) := by
      rw [← List.cons_append, ← head]
      exact whole.symm
    obtain ⟨start, stop, found, holds⟩ := Excerpt.range?_of_place place noFeed noReturn
    exact ⟨before, text, after, start, stop, pieces, lexeme, spelt, line ▸ found, holds⟩

end Offside
