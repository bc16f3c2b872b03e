/-
This file proves that a text that ends with a line break is cut into the same pieces whatever
comes after it.
-/

import Offside.Piece
import Mathlib.Data.List.Chain
import Mathlib.Data.List.TakeWhile

namespace Offside

section Munch

variable {α : Type} {sort : α → Bool} {text later : List α}

/-- A search that ends inside a text sees nothing of what comes after it. -/
theorem takeWhile_append_of_stop (stop : text.dropWhile sort ≠ []) :
    (text ++ later).takeWhile sort = text.takeWhile sort := by
  induction text with
  | nil => exact absurd rfl stop
  | cons first rest inductionHypothesis =>
      cases passes : sort first with
      | true =>
          rw [List.dropWhile_cons_of_pos passes] at stop
          rw [List.cons_append, List.takeWhile_cons_of_pos passes, inductionHypothesis stop,
            List.takeWhile_cons_of_pos passes]
      | false => simp [passes]

/-- What a search that stops leaves of a text goes on with the later text. -/
theorem dropWhile_append_of_stop (stop : text.dropWhile sort ≠ []) :
    (text ++ later).dropWhile sort = text.dropWhile sort ++ later := by
  rw [List.dropWhile_append, if_neg]
  rwa [List.isEmpty_iff]

end Munch

namespace Piece

/-- The text is empty or ends with a line break. -/
def EndsLine (text : List Char) : Prop := ∀ last ∈ text.getLast?, last = '\n'

/-- An end of a text that ends a line ends it as well. -/
theorem EndsLine.suffix {text tail : List Char} (ends : EndsLine text) (later : tail <:+ text) :
    EndsLine tail := by
  obtain ⟨before, rfl⟩ := later
  intro last present
  apply ends
  rw [List.getLast?_append, Option.mem_def.1 present]
  rfl

/-- A text that ends a line holds a line feed. -/
theorem EndsLine.mem {text : List Char} (ends : EndsLine text) (more : text ≠ []) :
    '\n' ∈ text := by
  have last := ends _ (List.getLast?_eq_some_getLast more)
  rw [← last]
  exact List.getLast_mem more

/-- A search for something that a line break is not ends in the text. -/
theorem EndsLine.stop {text : List Char} {sort : Char → Bool} (ends : EndsLine text)
    (more : text ≠ []) (breaks : sort '\n' = false) : text.dropWhile sort ≠ [] := by
  intro none
  have passes := List.dropWhile_eq_nil_iff.1 none '\n' (ends.mem more)
  rw [breaks] at passes
  cases passes

/-- Only the line break itself may be the last character. -/
theorem EndsLine.tail {c : Char} {rest : List Char} (ends : EndsLine (c :: rest))
    (other : c ≠ '\n') : EndsLine rest ∧ rest ≠ [] := by
  refine ⟨ends.suffix (List.suffix_cons c rest), ?_⟩
  intro none
  subst none
  exact other (ends c rfl)

/-- The text after the first piece goes on with the later text. -/
def extend (first : Piece × List Char) (later : List Char) : Piece × List Char :=
  (first.1, first.2 ++ later)

section Extend

variable {rest later : List Char}

/-- A tilde is cut alike with a later text behind its line. -/
theorem cutTilde_append (ends : EndsLine rest) (more : rest ≠ []) :
    cutTilde (rest ++ later) = extend (cutTilde rest) later := by
  match rest with
  | ['\r'] => cases ends '\r' rfl
  | c :: d :: tail =>
      by_cases feed : c = '\n'
      · subst feed
        rfl
      · by_cases carriage : c = '\r' ∧ d = '\n'
        · obtain ⟨rfl, rfl⟩ := carriage
          rfl
        · unfold cutTilde
          split <;> split <;> simp_all [extend]
  | [c] =>
      have feed := ends c rfl
      subst feed
      rfl

/-- A closed string is cut alike with a later text behind it. -/
theorem cutString_append (closed : rest.dropWhile (· != '"') ≠ []) :
    cutString (rest ++ later) = extend (cutString rest) later := by
  unfold cutString
  rw [takeWhile_append_of_stop closed, dropWhile_append_of_stop closed]
  cases stop : rest.dropWhile (· != '"') with
  | nil => exact absurd stop closed
  | cons quote tail => rfl

/-- A fraction has at least one digit, which is not the line break. -/
theorem EndsLine.fraction {c digit : Char} {tail : List Char}
    (ends : EndsLine (c :: digit :: tail)) (isDigit : digit.isDigit = true) :
    tail.dropWhile Char.isDigit ≠ [] := by
  have inner : EndsLine (digit :: tail) := ends.suffix (List.suffix_cons c _)
  have other : digit ≠ '\n' := by
    intro feed
    subst feed
    cases isDigit
  exact (inner.tail other).1.stop (inner.tail other).2 rfl

/-- A string that is cut closed has a closing quote. -/
theorem stop_of_cutString (closed : ∀ body, (cutString rest).1 ≠ unclosed body) :
    rest.dropWhile (· != '"') ≠ [] := by
  intro none
  apply closed (rest.takeWhile (· != '"'))
  simp [cutString, none]

/-- A number is cut alike with a later text behind its line. -/
theorem cutNumber_append (c : Char) (ends : EndsLine rest) (more : rest ≠ []) :
    cutNumber c (rest ++ later) = extend (cutNumber c rest) later := by
  have feed : Char.isDigit '\n' = false := rfl
  have stop := ends.stop more feed
  have inner : EndsLine (rest.dropWhile Char.isDigit) := ends.suffix (List.dropWhile_suffix _)
  unfold cutNumber
  rw [takeWhile_append_of_stop stop, dropWhile_append_of_stop stop]
  generalize rest.dropWhile Char.isDigit = tail at stop inner
  match tail with
  | [] => exact absurd rfl stop
  | [d] =>
      have last := inner d rfl
      subst last
      rfl
  | d :: e :: tail =>
      by_cases point : d = '.'
      · subst point
        cases isDigit : e.isDigit with
        | false => simp [extend, isDigit]
        | true =>
            have fraction := inner.fraction isDigit
            simp [extend, isDigit, takeWhile_append_of_stop fraction,
              dropWhile_append_of_stop fraction]
      · simp [extend, point]

/-- A word is cut alike with a later text behind its line. -/
theorem cutWord_append (c : Char) (ends : EndsLine rest) (more : rest ≠ []) :
    cutWord c (rest ++ later) = extend (cutWord c rest) later := by
  have feed : isNamePart '\n' = false := by decide
  have stop := ends.stop more feed
  unfold cutWord
  rw [takeWhile_append_of_stop stop, dropWhile_append_of_stop stop]
  rfl

/-- A single character is cut alike with a later text behind it. -/
theorem cutSingle_append (c : Char) :
    cutSingle c (rest ++ later) = extend (cutSingle c rest) later := by
  unfold cutSingle
  cases Symbol.single? c <;> rfl

/-- A comment in a text that ends a line has a line feed behind it. -/
theorem EndsLine.comment {tail : List Char} (ends : EndsLine ('/' :: tail)) :
    tail.dropWhile (· != '\n') ≠ [] := by
  obtain ⟨inner, more⟩ := ends.tail (by decide)
  exact inner.stop more rfl

/-- A symbol is cut alike with a later text behind its line. -/
theorem cutSymbol_append (c : Char) (ends : EndsLine rest) (more : rest ≠ []) :
    cutSymbol c (rest ++ later) = extend (cutSymbol c rest) later := by
  cases rest with
  | nil => exact absurd rfl more
  | cons d tail =>
      by_cases slashes : c = '/' ∧ d = '/'
      · obtain ⟨rfl, rfl⟩ := slashes
        have stop := ends.comment
        simp [cutSymbol, extend, takeWhile_append_of_stop stop, dropWhile_append_of_stop stop]
      · simp only [List.cons_append, cutSymbol, if_neg slashes]
        cases Symbol.pair? c d with
        | none => exact (cutSingle_append c : cutSingle c (d :: tail ++ later) = _)
        | some symbol => rfl

/-- The first piece of a text that ends with a line break is the same whatever comes after the
text, unless it is a string that the text leaves open. -/
theorem cut_append {c : Char} (ends : EndsLine (c :: rest))
    (closed : ∀ body, (cut c rest).1 ≠ unclosed body) :
    cut c (rest ++ later) = extend (cut c rest) later := by
  by_cases feed : c = '\n'
  · subst feed
    rfl
  obtain ⟨tail, more⟩ := ends.tail feed
  unfold cut at closed ⊢
  simp only [if_neg feed] at closed ⊢
  split
  · rfl
  next noGap =>
  simp only [if_neg noGap] at closed
  split
  · exact cutTilde_append tail more
  next noTilde =>
  simp only [if_neg noTilde] at closed
  split
  next quote =>
    simp only [if_pos quote] at closed
    exact cutString_append (stop_of_cutString closed)
  split
  · exact cutNumber_append c tail more
  split
  · exact cutWord_append c tail more
  · exact cutSymbol_append c tail more

/-- A text that ends with a line break and leaves no string open is cut as it would be alone. -/
theorem split_append {text : List Char} (ends : EndsLine text)
    (closed : ∀ body, unclosed body ∉ split text) :
    split (text ++ later) = split text ++ split later := by
  induction text using split.induct with
  | case1 => simp [split]
  | case2 c rest first inductionHypothesis =>
      rw [split] at closed
      have firstClosed : ∀ body, (cut c rest).1 ≠ unclosed body := by
        intro body same
        exact closed body (same ▸ List.mem_cons_self)
      have restClosed : ∀ body, unclosed body ∉ split (cut c rest).2 :=
        fun body member => closed body (List.mem_cons_of_mem _ member)
      have suffix : (cut c rest).2 <:+ c :: rest := ⟨_, cut_text c rest⟩
      rw [List.cons_append, split, cut_append ends firstClosed]
      change (cut c rest).1 :: split ((cut c rest).2 ++ later) = _
      rw [inductionHypothesis (ends.suffix suffix) restClosed, split]
      rfl

/-- A number leaves the line feed behind it. -/
theorem cutNumber_goesOn (c : Char) (ends : EndsLine rest) (more : rest ≠ []) :
    (cutNumber c rest).2 ≠ [] := by
  have feed : Char.isDigit '\n' = false := rfl
  have stop := ends.stop more feed
  unfold cutNumber
  split
  next digit tail fraction =>
    have inner : EndsLine ('.' :: digit :: tail) := fraction ▸ ends.suffix (List.dropWhile_suffix _)
    split
    next isDigit => exact inner.fraction isDigit
    · exact List.cons_ne_nil _ _
  · exact stop

/-- A symbol leaves the line feed behind it. -/
theorem cutSymbol_goesOn (c : Char) (ends : EndsLine rest) (more : rest ≠ []) :
    (cutSymbol c rest).2 ≠ [] := by
  have single (tail : List Char) (more : tail ≠ []) : (cutSingle c tail).2 ≠ [] := by
    unfold cutSingle
    split <;> exact more
  cases rest with
  | nil => exact absurd rfl more
  | cons d tail =>
      by_cases slashes : c = '/' ∧ d = '/'
      · obtain ⟨rfl, rfl⟩ := slashes
        exact ends.comment
      · simp only [cutSymbol, if_neg slashes]
        cases pair : Symbol.pair? c d with
        | none => exact single _ more
        | some symbol =>
            have other : d ≠ '\n' := by
              intro feed
              subst feed
              simp [Symbol.pair?] at pair
            exact (ends.tail other).2

/-- A line break alone, in a joint or in an open string. -/
def HoldsBreak (piece : Piece) : Prop :=
  piece = lineBreak ∨ (∃ carriage, piece = joint carriage) ∨ ∃ body, piece = unclosed body

/-- A piece that ends the text holds a line break. -/
def Closes (first : Piece × List Char) : Prop := first.2 = [] → HoldsBreak first.1

/-- A tilde that ends the text holds its line break. -/
theorem cutTilde_closes (more : rest ≠ []) : Closes (cutTilde rest) := by
  unfold cutTilde
  split
  · exact fun _ => Or.inr (Or.inl ⟨_, rfl⟩)
  · exact fun _ => Or.inr (Or.inl ⟨_, rfl⟩)
  · exact fun done => absurd done more

/-- A string that ends the text holds its line break. -/
theorem cutString_closes (ends : EndsLine rest) : Closes (cutString rest) := by
  unfold cutString
  split
  · exact fun _ => Or.inr (Or.inr ⟨_, rfl⟩)
  next quote tail stop =>
    have inner : EndsLine (quote :: tail) := stop ▸ ends.suffix (List.dropWhile_suffix _)
    have other : quote ≠ '\n' := by
      have isQuote := List.head?_dropWhile_not (· != '"') rest
      simp only [stop, List.head?_cons, bne_eq_false_iff_eq] at isQuote
      rw [isQuote]
      decide
    exact fun done => absurd done (inner.tail other).2

/-- A piece that ends a text that ends a line holds the line break. -/
theorem cut_closes {c : Char} (ends : EndsLine (c :: rest)) : Closes (cut c rest) := by
  by_cases feed : c = '\n'
  · subst feed
    exact fun _ => Or.inl rfl
  obtain ⟨tail, more⟩ := ends.tail feed
  unfold cut
  rw [if_neg feed]
  split
  · exact fun done => absurd done more
  split
  · exact cutTilde_closes more
  split
  · exact cutString_closes tail
  split
  · exact fun done => absurd done (cutNumber_goesOn c tail more)
  split
  · exact fun done => absurd done (tail.stop more (by decide))
  · exact fun done => absurd done (cutSymbol_goesOn c tail more)

/-- The last piece of a text that ends a line holds the line break. -/
theorem split_closes {text : List Char} (ends : EndsLine text) :
    ∀ last ∈ (split text).getLast?, HoldsBreak last := by
  induction text using split.induct with
  | case1 =>
      rw [split]
      intro last present
      cases present
  | case2 c rest first inductionHypothesis =>
      have suffix : (cut c rest).2 <:+ c :: rest := ⟨_, cut_text c rest⟩
      have further := inductionHypothesis (ends.suffix suffix)
      rw [split]
      intro last present
      rw [List.getLast?_cons, Option.mem_some_iff] at present
      subst present
      cases found : (split (cut c rest).2).getLast? with
      | none =>
          apply cut_closes ends
          rw [← split_text (cut c rest).2, List.getLast?_eq_none_iff.1 found]
          rfl
      | some last => exact further last found

/-- The text is empty or ends with a line break that no joint takes. -/
structure EndsScript (text : List Char) : Prop where
  line : EndsLine text
  free : ∀ carriage, (split text).getLast? ≠ some (joint carriage)

/-- A text whose last piece is a line break ends a script. -/
theorem endsScript_of_split {text : List Char} (last : (split text).getLast? = some lineBreak) :
    EndsScript text where
  line := by
    obtain ⟨front, same⟩ := List.getLast?_eq_some_iff.1 last
    have whole := split_text text
    rw [same, List.flatMap_append] at whole
    intro character present
    rw [← whole] at present
    simpa [Piece.text] using present.symm
  free carriage := by simp [last]

/-- A text that leaves no string open ends with a line break of its own. -/
theorem getLast?_split {text : List Char} (ends : EndsScript text)
    (closed : ∀ body, unclosed body ∉ split text) :
    ∀ last ∈ (split text).getLast?, last = lineBreak := by
  intro last present
  obtain same | ⟨carriage, same⟩ | ⟨body, same⟩ := split_closes ends.line last present
  · exact same
  · exact absurd (same ▸ present) (ends.free carriage)
  · exact absurd (same ▸ List.mem_of_getLast? present) (closed body)

end Extend

/-- Nothing but a line break may come after such a piece. -/
def endsText : Piece → Bool
  | blank c => c == '\r'
  | comment _ => true
  | _ => false

/-- After a carriage return or a comment, the line ends. -/
def Tidy (pieces : List Piece) : Prop :=
  pieces.IsChain fun first second => first.endsText = true → second = lineBreak

/-- Every carriage return stands before a line feed. -/
def Paired (text : List Char) : Prop :=
  ∀ before after, text = before ++ '\r' :: after → after.head? = some '\n'

theorem paired_nil : Paired [] := by
  intro before after same
  cases before <;> cases same

/-- A carriage return at the head is paired when a line feed follows it. -/
theorem paired_cons {c : Char} {rest : List Char} :
    Paired (c :: rest) ↔ (c = '\r' → rest.head? = some '\n') ∧ Paired rest := by
  constructor
  · intro paired
    refine ⟨?_, fun before after same => paired (c :: before) after (congrArg (c :: ·) same)⟩
    intro carriage
    subst carriage
    exact paired [] rest rfl
  · intro pairs before after same
    cases before with
    | nil =>
        obtain ⟨carriage, rfl⟩ := List.cons.inj same
        exact pairs.1 carriage
    | cons d before => exact pairs.2 before after (List.cons.inj same).2

/-- An end of a paired text is paired. -/
theorem Paired.suffix {text tail : List Char} (paired : Paired text) (later : tail <:+ text) :
    Paired tail := by
  obtain ⟨front, rfl⟩ := later
  intro before after same
  apply paired (front ++ before) after
  rw [same, List.append_assoc]

/-- The text is empty or starts with a line break. -/
def AtLineEnd (text : List Char) : Prop := ∀ first ∈ text.head?, first = '\n'

/-- A text at a line end starts with a line break piece. -/
theorem AtLineEnd.split {text : List Char} (starts : AtLineEnd text) :
    ∀ first ∈ (split text).head?, first = lineBreak := by
  intro first head
  cases text with
  | nil =>
      rw [Piece.split] at head
      cases head
  | cons c rest =>
      obtain rfl := starts c rfl
      rw [Piece.split] at head
      exact (Option.some.inj head).symm

/-- The search for a line feed stops at a line end. -/
theorem dropWhile_atLineEnd (text : List Char) : AtLineEnd (text.dropWhile (· != '\n')) := by
  intro first head
  have stop := List.head?_dropWhile_not (· != '\n') text
  rw [Option.mem_def.1 head] at stop
  simpa using stop

/-- The text after a piece that ends its line is empty or starts with a line break. -/
def Stops (first : Piece × List Char) : Prop := first.1.endsText = true → AtLineEnd first.2

theorem cutSingle_stops (c : Char) (rest : List Char) : Stops (cutSingle c rest) := by
  intro ends
  unfold cutSingle at ends
  split at ends <;> cases ends

/-- A comment runs up to the line end. -/
theorem cutSymbol_stops (c : Char) (rest : List Char) : Stops (cutSymbol c rest) := by
  unfold cutSymbol
  split
  · exact cutSingle_stops c []
  · split
    · exact fun _ => dropWhile_atLineEnd _
    · split
      · exact fun ends => by cases ends
      · exact cutSingle_stops c _

/-- A piece of a paired text that ends its line stops at the line end. -/
theorem cut_stops {c : Char} {rest : List Char} (paired : Paired (c :: rest)) :
    Stops (cut c rest) := by
  unfold cut
  split
  · exact fun ends => by cases ends
  split
  · intro carriage
    have same : c = '\r' := beq_iff_eq.1 carriage
    subst same
    intro first head
    rw [(paired_cons.1 paired).1 rfl] at head
    exact (Option.some.inj head).symm
  split
  · intro ends
    unfold cutTilde at ends
    split at ends <;> cases ends
  split
  · intro ends
    unfold cutString at ends
    split at ends <;> cases ends
  split
  · intro ends
    unfold cutNumber at ends
    repeat' split at ends
    all_goals cases ends
  split
  · exact fun ends => by cases ends
  · exact cutSymbol_stops c rest

/-- Where every carriage return stands before a line feed, the pieces are tidy. -/
theorem split_tidy {text : List Char} (paired : Paired text) : Tidy (split text) := by
  induction text using split.induct with
  | case1 => simp [split, Tidy]
  | case2 c rest first inductionHypothesis =>
      have suffix : (cut c rest).2 <:+ c :: rest := ⟨_, cut_text c rest⟩
      rw [split]
      refine List.isChain_cons.2 ⟨?_, inductionHypothesis (paired.suffix suffix)⟩
      intro second head ends
      exact (cut_stops paired ends).split second head

/-- These are the first pieces of the text. Unlike all its pieces, they are found by evaluation. -/
def splitWithin : Nat → List Char → List Piece
  | budget + 1, c :: rest => (cut c rest).1 :: splitWithin budget (cut c rest).2
  | _, _ => []

/-- Every piece has a character, so the length of the text is enough. -/
theorem split_eq_splitWithin {budget : Nat} {text : List Char} (enough : text.length ≤ budget) :
    split text = splitWithin budget text := by
  induction budget generalizing text with
  | zero =>
      obtain rfl := List.length_eq_zero_iff.1 (Nat.le_zero.1 enough)
      rw [split]
      rfl
  | succ budget inductionHypothesis =>
      cases text with
      | nil =>
          rw [split]
          rfl
      | cons c rest =>
          have shorter := cut_length c rest
          rw [split, splitWithin, inductionHypothesis (by omega)]

end Piece

end Offside
