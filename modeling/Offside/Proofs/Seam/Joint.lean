/-
This file proves that a tilde before a line break joins the next line on as a space would: all that
comes after it only stands one line later.
-/

import Offside.Proofs.Indent.Blank

namespace Offside

/-- A search stops at the mark at the latest. -/
theorem search_before (sort : Char → Bool) {mark : Char} (stops : sort mark = false)
    (text later : List Char) :
    (text ++ mark :: later).takeWhile sort = text.takeWhile sort ∧
      (text ++ mark :: later).dropWhile sort = text.dropWhile sort ++ mark :: later := by
  induction text with
  | nil => simp [stops]
  | cons c rest inductionHypothesis => cases passes : sort c <;> simp [passes, inductionHypothesis]

namespace Piece

/-- No lexeme goes on with such a character, unless it is a string. -/
def EndsLexeme (mark : Char) : Prop := mark = ' ' ∨ mark = '~' ∨ mark = '\n'

/-- The character does not belong to the pieces before it. A comment ends only before a line break,
and a line break may belong to a tilde. -/
structure Parts (mark : Char) (pieces : List Piece) : Prop where
  sort : EndsLexeme mark
  closed : ∀ body, unclosed body ∉ pieces
  comment : ∀ body, pieces.getLast? = some (comment body) → mark = '\n'
  tilde : mark = '\n' → stray '~' ∉ pieces

section Cut

variable {mark c : Char} {rest later : List Char}

/-- A tilde is cut alike before the mark. -/
theorem cutTilde_before (sort : EndsLexeme mark)
    (tilde : mark = '\n' → (cutTilde rest).1 ≠ stray '~') :
    cutTilde (rest ++ mark :: later) = extend (cutTilde rest) (mark :: later) := by
  match rest with
  | [] =>
      obtain rfl | rfl | rfl := sort
      · rfl
      · rfl
      · exact absurd rfl (tilde rfl)
  | [d] =>
      by_cases carriage : d = '\r'
      · subst carriage
        obtain rfl | rfl | rfl := sort
        · rfl
        · rfl
        · exact absurd rfl (tilde rfl)
      · by_cases feed : d = '\n'
        · subst feed
          rfl
        · simp [cutTilde, extend, carriage, feed]
  | d :: e :: tail =>
      by_cases feed : d = '\n'
      · subst feed
        rfl
      · by_cases carriage : d = '\r' ∧ e = '\n'
        · obtain ⟨rfl, rfl⟩ := carriage
          rfl
        · unfold cutTilde
          split <;> split <;> simp_all [extend]

/-- A number is cut alike before the mark. -/
theorem cutNumber_before (sort : EndsLexeme mark) (c : Char) :
    cutNumber c (rest ++ mark :: later) = extend (cutNumber c rest) (mark :: later) := by
  have stops : mark.isDigit = false := by obtain rfl | rfl | rfl := sort <;> rfl
  have noPoint : mark ≠ '.' := by obtain rfl | rfl | rfl := sort <;> decide
  have searched := search_before Char.isDigit stops
  unfold cutNumber
  rw [(searched rest later).1, (searched rest later).2]
  match rest.dropWhile Char.isDigit with
  | [] => simp [extend, noPoint]
  | [d] =>
      by_cases point : d = '.'
      · simp [extend, point, stops]
      · simp [extend, point]
  | d :: e :: tail =>
      by_cases point : d = '.'
      · obtain ⟨taken, dropped⟩ := searched tail later
        cases digit : e.isDigit <;> simp [extend, point, digit, taken, dropped]
      · simp [extend, point]

/-- A word is cut alike before the mark. -/
theorem cutWord_before (sort : EndsLexeme mark) (c : Char) :
    cutWord c (rest ++ mark :: later) = extend (cutWord c rest) (mark :: later) := by
  have stops : isNamePart mark = false := by obtain rfl | rfl | rfl := sort <;> decide
  obtain ⟨taken, dropped⟩ := search_before isNamePart stops rest later
  unfold cutWord
  rw [taken, dropped]
  rfl

/-- A symbol is cut alike before the mark unless it runs on as a comment. -/
theorem cutSymbol_before (sort : EndsLexeme mark) (c : Char)
    (ended : ∀ body, cutSymbol c rest = (comment body, []) → mark = '\n') :
    cutSymbol c (rest ++ mark :: later) = extend (cutSymbol c rest) (mark :: later) := by
  have single (tail : List Char) :
      cutSingle c (tail ++ mark :: later) = extend (cutSingle c tail) (mark :: later) :=
    cutSingle_append c
  cases rest with
  | nil =>
      have apart : ¬ (c = '/' ∧ mark = '/') := by
        rintro ⟨-, slash⟩
        obtain rfl | rfl | rfl := sort <;> cases slash
      have alone : Symbol.pair? c mark = none := by
        obtain rfl | rfl | rfl := sort <;> simp [Symbol.pair?]
      simp only [List.nil_append, cutSymbol, if_neg apart, alone]
      exact single []
  | cons d tail =>
      by_cases slashes : c = '/' ∧ d = '/'
      · have whole : cutSymbol c (d :: tail) =
            (comment (tail.takeWhile (· != '\n')), tail.dropWhile (· != '\n')) := by
          simp [cutSymbol, slashes]
        rw [whole] at ended ⊢
        rw [List.cons_append, cutSymbol, if_pos slashes]
        by_cases stop : tail.dropWhile (· != '\n') = []
        · obtain rfl := ended _ (by rw [stop])
          obtain ⟨taken, dropped⟩ := search_before (· != '\n') (bne_self_eq_false '\n') tail later
          rw [taken, dropped]
          rfl
        · rw [takeWhile_append_of_stop stop, dropWhile_append_of_stop stop]
          rfl
      · simp only [List.cons_append, cutSymbol, if_neg slashes]
        cases Symbol.pair? c d with
        | none => exact single (d :: tail)
        | some symbol => rfl

/-- The first piece of a text ends before such a character at the latest. -/
theorem cut_before (sort : EndsLexeme mark)
    (closed : ∀ body, (cut c rest).1 ≠ unclosed body)
    (ended : ∀ body, cut c rest = (comment body, []) → mark = '\n')
    (tilde : mark = '\n' → (cut c rest).1 ≠ stray '~') :
    cut c (rest ++ mark :: later) = extend (cut c rest) (mark :: later) := by
  unfold cut at closed ended tilde ⊢
  split
  · rfl
  next noFeed =>
  simp only [if_neg noFeed] at closed ended tilde
  split
  · rfl
  next noGap =>
  simp only [if_neg noGap] at closed ended tilde
  split
  next isTilde =>
    simp only [if_pos isTilde] at tilde
    exact cutTilde_before sort tilde
  next noTilde =>
  simp only [if_neg noTilde] at closed ended tilde
  split
  next quote =>
    simp only [if_pos quote] at closed
    exact cutString_append (stop_of_cutString closed)
  next noQuote =>
  simp only [if_neg noQuote] at ended
  split
  · exact cutNumber_before sort c
  next noDigit =>
  simp only [if_neg noDigit] at ended
  split
  · exact cutWord_before sort c
  next noWord =>
  simp only [if_neg noWord] at ended
  exact cutSymbol_before sort c ended

end Cut

/-- A mark that belongs to none of the pieces belongs to none of the later ones. -/
theorem Parts.tail {mark : Char} {piece : Piece} {ahead : List Piece}
    (parts : Parts mark (piece :: ahead)) : Parts mark ahead where
  sort := parts.sort
  closed body member := parts.closed body (List.mem_cons_of_mem _ member)
  comment body last := parts.comment body (by rw [List.getLast?_cons, last]; rfl)
  tilde feed member := parts.tilde feed (List.mem_cons_of_mem _ member)

/-- A text is cut as it would be alone, whatever comes after such a character. -/
theorem split_before {mark : Char} {text : List Char} (parts : Parts mark (split text))
    (later : List Char) : split (text ++ mark :: later) = split text ++ split (mark :: later) := by
  induction text using split.induct with
  | case1 => simp [split]
  | case2 c rest first inductionHypothesis =>
      rw [split_cons] at parts
      have closed (body : List Char) : (cut c rest).1 ≠ unclosed body := by
        intro same
        exact parts.closed body (same ▸ List.mem_cons_self)
      have ended (body : List Char) (whole : cut c rest = (comment body, [])) : mark = '\n' := by
        apply parts.comment body
        rw [whole, split]
        rfl
      have tilde (feed : mark = '\n') : (cut c rest).1 ≠ stray '~' := by
        intro same
        exact parts.tilde feed (same ▸ List.mem_cons_self)
      rw [List.cons_append, split_cons, cut_before parts.sort closed ended tilde]
      change (cut c rest).1 :: split ((cut c rest).2 ++ mark :: later) = _
      rw [inductionHypothesis parts.tail, split_cons c rest]
      rfl

end Piece

namespace Margin

/-- The later pieces change nothing in how the lines before them are measured. -/
structure Settled (before later : List Piece) : Prop where
  head : ∀ margin : Margin, margin.measure (before ++ later) = margin.measure before
  breaks : ∀ front back, before = front ++ .lineBreak :: back →
    ∀ margin : Margin, margin.measure (back ++ later) = margin.measure back

/-- Inside a line, the layout goes on from the margin that the pieces before leave. -/
theorem arrange_settled (margin : Margin) {before later : List Piece}
    (breaks : ∀ front back, before = front ++ .lineBreak :: back →
      ∀ margin : Margin, margin.measure (back ++ later) = margin.measure back) :
    margin.arrange (before ++ later) =
      ⟨(margin.gather before).1, (margin.arrange before).errors⟩ ++
        (margin.gather before).2.arrange later := by
  induction before generalizing margin with
  | nil => exact Scan.ext rfl rfl
  | cons piece before inductionHypothesis =>
      have step : margin.advance piece (before ++ later) = margin.advance piece before := by
        cases piece with
        | lineBreak =>
            unfold advance
            simp only [breaks [] before rfl]
        | blank | comment | joint | lexeme | stray | unclosed => rfl
      rw [List.cons_append, arrange, step, inductionHypothesis, ← Scan.append_assoc]
      · rfl
      · intro front back whole
        exact breaks (piece :: front) back (by rw [whole, List.cons_append])

end Margin

/-- Pieces after settled ones are laid out from the margin where those end. -/
theorem scanPieces_settled {before later : List Piece} (settled : Margin.Settled before later) :
    scanPieces (before ++ later) =
      ⟨gathered before, (scanPieces before).errors⟩ ++ (Margin.atEnd before).arrange later := by
  unfold scanPieces
  simp only [settled.head]
  rw [Margin.arrange_settled _ settled.breaks, ← Scan.append_assoc]
  rfl

/-- Where the text ends, no string is open and no comment goes on. -/
structure EndsBetween (source : String) : Prop where
  strings : ∀ body, .unclosed body ∉ Piece.split source.toList
  comments : ∀ body, (Piece.split source.toList).getLast? ≠ some (.comment body)

/-- The last line of the text holds something other than spaces. -/
def EndsInLine (source : String) : Prop :=
  ∃ front c back, source.toList = front ++ c :: back ∧ c ≠ ' ' ∧ c ≠ '\n' ∧ '\n' ∉ back

/-- Pieces without content are spaces. -/
theorem text_of_content {pieces : List Piece} (none : Margin.content pieces = []) :
    ∀ c ∈ pieces.flatMap Piece.text, c = ' ' := by
  have spaces := List.dropWhile_eq_nil_iff.1 none
  intro c member
  obtain ⟨piece, present, inside⟩ := List.mem_flatMap.1 member
  have space : piece = .blank ' ' := by simpa using spaces piece present
  rw [space] at inside
  exact List.mem_singleton.1 inside

/-- The last line is measured by what the text itself holds. -/
theorem EndsInLine.settled {source : String} (inLine : EndsInLine source) (later : List Piece) :
    Margin.Settled (Piece.split source.toList) later := by
  -- The character that is no space stands after every line break, so it ends the indentation of the
  -- last line before the later pieces start.
  obtain ⟨before, c, after, text, noSpace, noFeed, free⟩ := inLine
  have whole := Piece.split_text source.toList
  constructor
  · intro margin
    apply Margin.measure_append later
    intro none
    apply noSpace
    apply text_of_content none
    rw [whole, text]
    simp
  · intro front back pieces margin
    apply Margin.measure_append later
    intro none
    have spaces := text_of_content none
    rw [pieces, List.flatMap_append, List.flatMap_cons, text] at whole
    obtain ⟨others, start⟩ | ⟨others, -, rest⟩ := append_cons_cases whole
    · rw [start, List.append_assoc] at whole
      have end_ := List.append_cancel_left whole
      exact free (by simp [← (List.cons.inj end_).2, Piece.text])
    · have member : c ∈ Piece.lineBreak.text ++ back.flatMap Piece.text := by
        rw [rest]
        simp
      obtain feed | space := List.mem_append.1 member
      · exact noFeed (List.mem_singleton.1 feed)
      · exact noSpace (spaces c space)

/-- A space or a tilde does not belong to a text that ends between its pieces. -/
theorem EndsBetween.parts {source : String} (between : EndsBetween source) {mark : Char}
    (sort : mark = ' ' ∨ mark = '~') : Piece.Parts mark (Piece.split source.toList) where
  sort := sort.imp_right .inl
  closed := between.strings
  comment body last := absurd last (between.comments body)
  tilde feed := by
    obtain rfl | rfl := sort <;> cases feed

/-- Between two lexemes of a line, the text after a mark goes on from the margin of the text before
it. -/
theorem scan_between {before : String} (between : EndsBetween before) (inLine : EndsInLine before)
    {mark : Char} (sort : mark = ' ' ∨ mark = '~') (later : List Char) :
    scan (String.ofList (before.toList ++ mark :: later)) = scanBefore before ++
      (Margin.atEnd (Piece.split before.toList)).arrange (Piece.split (mark :: later)) := by
  rw [scan, String.toList_ofList, Piece.split_before (between.parts sort),
    scanPieces_settled (inLine.settled _)]
  rfl

/-- Inside a line, a tilde and the line break after it mean no more than a space. What comes after
them stands one line later, and nothing else changes. -/
theorem scan_joint {before : String} (between : EndsBetween before) (inLine : EndsInLine before)
    (later : String) :
    ∃ rest, scan (before ++ " " ++ later) = scanBefore before ++ rest ∧
      scan (before ++ "~\n" ++ later) = scanBefore before ++ rest.shift 1 := by
  let margin := Margin.atEnd (Piece.split before.toList)
  refine ⟨margin.arrange (Piece.split later.toList), ?_, ?_⟩
  · have spaced : before ++ " " ++ later =
        String.ofList (before.toList ++ ' ' :: later.toList) := by
      apply String.toList_inj.1
      simp
    have idle : margin.advance (.blank ' ') (Piece.split later.toList) = (.empty, margin) := rfl
    rw [spaced, scan_between between inLine (.inl rfl), BlankLine.split_blank rfl,
      BlankLine.arrange_of_idle idle]
  · have joined : before ++ "~\n" ++ later =
        String.ofList (before.toList ++ '~' :: '\n' :: later.toList) := by
      apply String.toList_inj.1
      simp
    have joint : Piece.split ('~' :: '\n' :: later.toList) =
        .joint false :: Piece.split later.toList := Piece.split_cons _ _
    have echoes : Margin.Echoes 1 margin { margin with line := margin.line + 1 } :=
      ⟨rfl, rfl, .inl rfl⟩
    rw [joined, scan_between between inLine (.inr rfl), joint, ← echoes.arrange]
    exact congrArg (scanBefore before ++ ·) (Scan.ext rfl rfl)

/-- The slashes on both sides of the joint make no comment, and the spaces at the head of the joined
line are no indentation. -/
theorem scan_joint_slashes :
    let before := "if x then\n    a /"
    EndsBetween before ∧ EndsInLine before ∧
      ∃ rest, scan "if x then\n    a /   / b\n    c" = scanBefore before ++ rest ∧
        scan "if x then\n    a /~\n  / b\n    c" = scanBefore before ++ rest.shift 1 := by
  intro before
  have pieces : Piece.split before.toList =
      [.lexeme (.keyword .if_) ['i', 'f'], .blank ' ', .lexeme .name ['x'], .blank ' ',
        .lexeme (.keyword .then_) ['t', 'h', 'e', 'n'], .lineBreak, .blank ' ', .blank ' ',
        .blank ' ', .blank ' ', .lexeme .name ['a'], .blank ' ',
        .lexeme (.symbol .slash) ['/']] := by
    change Piece.split "if x then\n    a /".toList = _
    rw [Piece.split_eq_splitWithin (Nat.le_refl 17)]
    rfl
  have between : EndsBetween before := by
    constructor
    · intro body
      simp [pieces]
    · intro body
      simp [pieces]
  have inLine : EndsInLine before :=
    ⟨"if x then\n    a ".toList, '/', [], by decide, by decide, by decide, by decide⟩
  exact ⟨between, inLine, scan_joint between inLine "  / b\n    c"⟩

end Offside
