/-
This file proves when a line of an interactive session leaves its entry open, in terms of the tokens
of the line.
-/

import Offside.Entry
import Offside.Proofs.Lexeme.Rescan
import Offside.Proofs.Seam.Recovery
import Offside.Proofs.Text

namespace Offside

section Lexeme

variable {text : List Char} {kind other : Kind} {literal different : Option Literal} {c : Char}

/-- A lexeme has one kind. -/
theorem Denotes.kind_eq (denotes : Denotes text kind literal)
    (again : Denotes text other different) : kind = other := by
  obtain ⟨first, rest, rfl⟩ := List.exists_cons_of_ne_nil denotes.ne_nil
  have alone : AtSpace [] := nofun
  have longest := longest_of_space denotes alone
  have noComment := noComment_of_space denotes alone
  rw [List.append_nil] at longest noComment
  have one := Piece.cut_of_longest denotes longest noComment
  have two := Piece.cut_of_longest again longest noComment
  exact (Piece.lexeme.inj (one.symm.trans two)).1

/-- Only symbols and strings end with a character that no word and no number has. -/
theorem Denotes.symbol_or_quote (denotes : Denotes text kind literal)
    (last : text.getLast? = some c) (outside : Piece.isNamePart c = false) (noPoint : c ≠ '.') :
    (∃ symbol : Symbol, kind = .symbol symbol ∧ text = symbol.text) ∨ c = '"' := by
  obtain ⟨symbol, rfl⟩ | ⟨body, -, rfl⟩ :=
    denotes.symbol_or_quoted (List.mem_of_getLast? last) outside noPoint
  · exact .inl ⟨symbol, denotes.kind_eq (.symbol symbol), rfl⟩
  · rw [List.getLast?_append] at last
    exact .inr (Option.some.inj last).symm

/-- A name part has a code between those of the digit zero and the last small letter. -/
theorem code_of_isNamePart (part : Piece.isNamePart c = true) : 48 ≤ c.toNat ∧ c.toNat ≤ 122 := by
  change (decide ('A'.val ≤ c.val ∧ c.val ≤ 'Z'.val) ||
    (decide ('a'.val ≤ c.val) && decide (c.val ≤ 'z'.val)) ||
    (decide ('0'.val ≤ c.val) && decide (c.val ≤ '9'.val)) || c == '_') = true at part
  simp only [Bool.or_eq_true, Bool.and_eq_true, decide_eq_true_eq, beq_iff_eq,
    UInt32.le_iff_toNat_le, Char.reduceVal, UInt32.reduceToNat, Char.toNat_val] at part
  obtain ((upper | lower) | digit) | rfl := part
  · omega
  · omega
  · omega
  · decide

/-- No blank belongs to a word, to a number or to the quotes of a string. -/
theorem isNamePart_of_isBlank (blank : Text.isBlank c = true) :
    Piece.isNamePart c = false ∧ c ≠ '.' ∧ c ≠ '"' := by
  have other {d : Char} (solid : Text.isBlank d = false) : c ≠ d := by
    rintro rfl
    rw [solid] at blank
    cases blank
  refine ⟨?_, other rfl, other rfl⟩
  by_contra part
  rw [Bool.not_eq_false] at part
  have code := code_of_isNamePart part
  simp only [Text.isBlank, Bool.or_eq_true, Bool.and_eq_true, decide_eq_true_eq,
    beq_iff_eq] at blank
  omega

/-- No lexeme ends with a blank or with a tilde. -/
theorem Denotes.last_solid (denotes : Denotes text kind literal) (last : text.getLast? = some c) :
    Text.isBlank c = false ∧ c ≠ '~' := by
  rw [← Bool.not_eq_true, Ne, ← not_or]
  intro loose
  have outside : Piece.isNamePart c = false ∧ c ≠ '.' ∧ c ≠ '"' := by
    obtain blank | rfl := loose
    · exact isNamePart_of_isBlank blank
    · decide
  obtain ⟨symbol, -, rfl⟩ | quote := denotes.symbol_or_quote last outside.1 outside.2.1
  · cases symbol <;> cases last <;> revert loose <;> decide
  · exact outside.2.2 quote

/-- A lexeme that ends with a letter is a word. -/
theorem Denotes.word_of_last (denotes : Denotes text kind literal) (last : text.getLast? = some c)
    (letter : Piece.isNameStart c = true) : Word text := by
  have noDigit := Piece.isDigit_of_isNameStart letter
  have outside {digits : List Char} (all : Digits digits) : digits.getLast? ≠ some c := by
    intro last
    rw [all.all c (List.mem_of_getLast? last)] at noDigit
    cases noDigit
  cases denotes with
  | symbol symbol => cases symbol <;> cases last <;> exact absurd letter (by decide)
  | whole digits => exact absurd last (outside digits)
  | @fraction whole digits front all =>
      have more : '.' :: digits ≠ [] := List.cons_ne_nil _ _
      rw [List.getLast?_append_of_ne_nil _ more, List.getLast?_cons_of_ne_nil all.nonempty] at last
      exact absurd last (outside all)
  | string free =>
      rw [List.getLast?_append] at last
      cases last
      exact absurd letter (by decide)
  | keyword keyword => exact keyword.word
  | name isWord => exact isWord

end Lexeme

namespace Piece

section Split

variable {text : List Char} {piece : Piece} {after : List Piece}

/-- Every piece is cut off the text from its place on. -/
theorem cut_of_split (before : List Piece) (whole : split text = before ++ piece :: after) :
    ∃ c rest, c :: rest <:+ text ∧ (cut c rest).1 = piece ∧ after = split (cut c rest).2 := by
  induction text using split.induct generalizing before with
  | case1 =>
      rw [split] at whole
      simp at whole
  | case2 c rest first inductionHypothesis =>
      rw [split] at whole
      cases before with
      | nil =>
          obtain ⟨same, ahead⟩ := List.cons.inj whole
          exact ⟨c, rest, List.suffix_rfl, same, ahead.symm⟩
      | cons other before =>
          obtain ⟨d, tail, suffix, found⟩ := inductionHypothesis before (List.cons.inj whole).2
          exact ⟨d, tail, suffix.trans ⟨_, cut_text c rest⟩, found⟩

/-- The piece after a word does not start with a character that the word could go on with. -/
theorem isNamePart_of_split {before : List Piece} {kind : Kind} {word more : List Char} {d : Char}
    (whole : split text = before ++ lexeme kind word :: piece :: after) (isWord : Word word)
    (head : piece.text = d :: more) : isNamePart d = false := by
  obtain ⟨c, rest, -, found, later⟩ := cut_of_split _ whole
  have text := cut_text c rest
  rw [found, ← split_text (cut c rest).2, ← later, List.flatMap_cons, head] at text
  by_contra goesOn
  rw [Bool.not_eq_false] at goesOn
  have longer : Word (word ++ [d]) := by
    cases word with
    | nil => exact isWord.elim
    | cons first letters =>
        refine ⟨isWord.1, ?_⟩
        intro letter member
        obtain inside | last := List.mem_append.1 member
        · exact isWord.2 letter inside
        · rwa [List.mem_singleton.1 last]
  have starts : word ++ [d] <+: c :: rest := by
    rw [← text]
    exact ⟨more ++ after.flatMap Piece.text, by simp [Piece.text]⟩
  have short := (longest_of_cut found).longest _ ⟨_, _, denotes_word longer⟩ starts
  rw [List.length_append, List.length_singleton] at short
  omega

/-- Without a line break, nothing comes after a comment. -/
theorem eq_nil_of_comment {before : List Piece} {body : List Char} (single : '\n' ∉ text)
    (whole : split text = before ++ comment body :: after) : after = [] := by
  obtain ⟨c, rest, suffix, found, later⟩ := cut_of_split _ whole
  have justified := cut_justified c rest
  rw [found] at justified
  have ends : AtLineEnd (cut c rest).2 := by
    cases justified with
    | comment free ends => exact ends
  have free : '\n' ∉ (cut c rest).2 := by
    intro member
    apply single
    apply suffix.subset
    rw [← cut_text c rest]
    exact List.mem_append_right _ member
  cases tail : (cut c rest).2 with
  | nil => rw [later, tail, split]
  | cons d others =>
      rw [tail] at ends free
      obtain rfl := ends d rfl
      exact absurd List.mem_cons_self free

/-- The last lexeme has only pieces without a spelling after it. -/
theorem lastLexeme_cases (pieces : List Piece) :
    (∀ piece ∈ pieces, piece.spellings = []) ∨
      ∃ before kind text gaps, pieces = before ++ lexeme kind text :: gaps ∧
        ∀ piece ∈ gaps, piece.spellings = [] := by
  induction pieces with
  | nil => exact .inl nofun
  | cons piece ahead inductionHypothesis =>
      obtain none | ⟨before, kind, text, gaps, rfl, none⟩ := inductionHypothesis
      · cases piece with
        | lexeme kind text => exact .inr ⟨[], kind, text, ahead, rfl, none⟩
        | blank | comment | lineBreak | joint | stray | unclosed =>
            exact .inl (List.forall_mem_cons.2 ⟨rfl, none⟩)
      · exact .inr ⟨piece :: before, kind, text, gaps, rfl, none⟩

end Split

end Piece

/-- The last token comes from the last lexeme. -/
theorem lastWritten?_spelling (source : String) :
    (Token.lastWritten? (scan source).tokens).map Token.spelling =
      ((Piece.split source.toList).flatMap Piece.spellings).getLast? := by
  rw [← spellingsOf_scan, spellingsOf, List.getLast?_map]
  rfl

/-- The text ends in an equals sign, in a tilde or in the word `then` on its own. -/
def EndsOpen (text : List Char) : Prop :=
  text.getLast? = some '=' ∨ text.getLast? = some '~' ∨
    ∃ before, text = before ++ Keyword.then_.text.toList ∧
      ∀ c ∈ before.getLast?, Text.isBlank c = true

/-- A line needs a continuation when its trimmed text ends open. -/
theorem needsContinuation_iff_endsOpen (line : String) :
    needsContinuation line = true ↔ EndsOpen (Text.trimEnd line.toList) := by
  have solid : ∀ c ∈ ['t', 'h', 'e', 'n'], Text.isBlank c = false := by simp [Text.isBlank]
  have word : Keyword.then_.text.toList = ['t', 'h', 'e', 'n'] := by decide
  rw [EndsOpen, word, ← Text.lastWord_eq_iff solid]
  simp [needsContinuation, or_assoc]

/-- The pieces of a line without comments and flaws are gaps and lexemes. -/
structure Plain (text : List Char) : Prop where
  gap : ∀ piece ∈ Piece.split text, piece.spellings = [] →
    ∃ c, Piece.isGap c = true ∧ piece = .blank c
  lexeme : ∀ kind word, .lexeme kind word ∈ Piece.split text →
    Denotes word kind (kind.literal? word)

/-- A single line without comments and flaws is plain. -/
theorem plain_of_scan {line : String} (single : '\n' ∉ line.toList)
    (clean : (scan line).errors = [])
    (noComment : ∀ body, .comment body ∉ Piece.split line.toList) : Plain line.toList := by
  have justified : ∀ piece ∈ Piece.split line.toList, ∃ later, piece.Justified later := by
    intro piece member
    obtain ⟨before, after, whole⟩ := List.append_of_mem member
    obtain ⟨c, rest, -, rfl, -⟩ := Piece.cut_of_split before whole
    exact ⟨_, Piece.cut_justified c rest⟩
  have free : ∀ piece ∈ Piece.split line.toList, '\n' ∉ piece.text := by
    intro piece member inside
    rw [← Piece.split_text line.toList] at single
    exact single (List.mem_flatMap.2 ⟨piece, member, inside⟩)
  constructor
  · intro piece member none
    have flawless := flawless_of_scan clean piece member
    have inLine := free piece member
    -- What is no gap and no lexeme is a comment, has a flaw or holds a line break.
    cases piece with
    | blank c =>
        refine ⟨c, ?_, rfl⟩
        obtain ⟨later, gap⟩ := justified _ member
        cases gap with
        | blank space =>
            simp only [List.mem_cons, List.not_mem_nil, or_false] at space
            obtain rfl | rfl | rfl | rfl := space
            · rfl
            · rfl
            · rfl
            · exact absurd List.mem_cons_self inLine
    | comment body => exact absurd member (noComment body)
    | lineBreak => exact absurd List.mem_cons_self inLine
    | joint carriage => cases carriage <;> simp [Piece.text] at inLine
    | lexeme => cases none
    | stray | unclosed => cases flawless
  · intro kind word member
    obtain ⟨later, denotes⟩ := justified _ member
    exact denotes

/-- A gap is blank. -/
theorem isBlank_of_isGap {c : Char} (gap : Piece.isGap c = true) : Text.isBlank c = true := by
  simp only [Piece.isGap, Bool.or_eq_true, beq_iff_eq] at gap
  obtain (rfl | rfl) | rfl := gap <;> rfl

namespace Plain

variable {text word : List Char} {before gaps : List Piece} {kind : Kind} {c : Char}

/-- What comes before a piece ends with a gap or with a lexeme. -/
theorem last_cases {after : List Piece} (plain : Plain text)
    (whole : Piece.split text = before ++ after)
    (last : (before.flatMap Piece.text).getLast? = some c) :
    Piece.isGap c = true ∨ ∃ others kind word, before = others ++ [.lexeme kind word] ∧
      Denotes word kind (kind.literal? word) ∧ word.getLast? = some c := by
  obtain rfl | ⟨others, piece, rfl⟩ := before.eq_nil_or_concat
  · cases last
  have member : piece ∈ Piece.split text := by simp [whole]
  rw [List.concat_eq_append, List.flatMap_append, List.flatMap_singleton] at last
  by_cases none : piece.spellings = []
  · obtain ⟨d, gap, rfl⟩ := plain.gap piece member none
    rw [Piece.text, List.getLast?_concat] at last
    exact .inl (Option.some.inj last ▸ gap)
  · cases piece with
    | lexeme kind word =>
        have denotes := plain.lexeme kind word member
        rw [Piece.text, List.getLast?_append_of_ne_nil _ denotes.ne_nil] at last
        exact .inr ⟨others, kind, word, List.concat_eq_append, denotes, last⟩
    | blank | comment | lineBreak | joint | stray | unclosed => exact absurd rfl none

/-- If the last lexeme is the end of a word `then`, it is the whole word. -/
theorem then_of_last (plain : Plain text)
    (whole : Piece.split text = before ++ .lexeme kind word :: gaps) {opening : List Char}
    (ends : before.flatMap Piece.text ++ word = opening ++ Keyword.then_.text.toList)
    (apart : ∀ c ∈ opening.getLast?, Text.isBlank c = true) :
    opening = before.flatMap Piece.text ∧ word = Keyword.then_.text.toList := by
  have denotes := plain.lexeme kind word (by simp [whole])
  have letters : ∀ c ∈ Keyword.then_.text.toList, Piece.isNameStart c = true :=
    List.all_eq_true.1 (by decide)
  have parts : ∀ c ∈ Keyword.then_.text.toList, Piece.isNamePart c = true :=
    List.all_eq_true.1 (by decide)
  -- The lexeme is at least as long as the word, or the word starts before the lexeme.
  obtain ⟨extra, rfl, long⟩ | ⟨extra, short, rest⟩ := List.append_eq_append_iff.1 ends
  · obtain rfl | ⟨front, c, rfl⟩ := extra.eq_nil_or_concat
    · exact ⟨List.append_nil _, long⟩
    · -- The lexeme would have a blank inside and end with a letter.
      exfalso
      have last : word.getLast? = some 'n' := by
        rw [long, List.getLast?_append]
        rfl
      have isWord := denotes.word_of_last last (by decide)
      have inside := isWord.isNamePart c (by simp [long])
      rw [(isNamePart_of_isBlank (apart c (by simp))).1] at inside
      cases inside
  · obtain rfl | ⟨front, c, rfl⟩ := extra.eq_nil_or_concat
    · exact ⟨(List.append_nil opening).symm.trans short.symm, rest.symm⟩
    · -- The first letters of the word would belong to a lexeme that could go on with the others.
      exfalso
      obtain ⟨d, more, head⟩ := List.exists_cons_of_ne_nil denotes.ne_nil
      have first : c ∈ Keyword.then_.text.toList := by simp [rest]
      have second : d ∈ Keyword.then_.text.toList := by simp [rest, head]
      have last : (before.flatMap Piece.text).getLast? = some c := by simp [short]
      obtain gap | ⟨others, kind, front, rfl, word, last⟩ := plain.last_cases whole last
      · have outside := (isNamePart_of_isBlank (isBlank_of_isGap gap)).1
        rw [parts c first] at outside
        cases outside
      · rw [List.append_assoc] at whole
        have isWord := word.word_of_last last (letters c first)
        have stops := Piece.isNamePart_of_split whole isWord head
        rw [parts d second] at stops
        cases stops

/-- There are only gaps where there is no lexeme. -/
theorem isGap_of_mem (plain : Plain text) (inside : gaps ⊆ Piece.split text)
    (none : ∀ piece ∈ gaps, piece.spellings = []) :
    ∀ c ∈ gaps.flatMap Piece.text, Piece.isGap c = true := by
  intro c member
  obtain ⟨piece, present, member⟩ := List.mem_flatMap.1 member
  obtain ⟨d, gap, rfl⟩ := plain.gap piece (inside present) (none piece present)
  rwa [List.mem_singleton.1 member]

/-- The line without the blanks at its end stops after its last lexeme. -/
theorem trimEnd_eq (plain : Plain text)
    (whole : Piece.split text = before ++ .lexeme kind word :: gaps)
    (none : ∀ piece ∈ gaps, piece.spellings = []) :
    Text.trimEnd text = before.flatMap Piece.text ++ word := by
  have denotes := plain.lexeme kind word (by simp [whole])
  have gap := plain.isGap_of_mem (fun piece member => by simp [whole, member]) none
  rw [← Piece.split_text text, whole, List.flatMap_append, List.flatMap_cons, Piece.text,
    ← List.append_assoc]
  apply Text.trimEnd_append fun c member => isBlank_of_isGap (gap c member)
  intro c last
  rw [List.getLast?_append_of_ne_nil _ denotes.ne_nil] at last
  exact (denotes.last_solid last).1

end Plain

/-- A last token leaves its line open if it is an operator that ends in an equals sign, or the word
`then` with nothing but gaps next to it. -/
inductive LeavesOpen (line : List Char) (token : Token) : Prop
  | operator {symbol : Symbol} : token.kind = .symbol symbol →
      token.lexeme.toList.getLast? = some '=' → LeavesOpen line token
  | word (before gap : List Char) : token.kind = .keyword .then_ →
      line = before ++ Keyword.then_.text.toList ++ gap →
      (∀ c ∈ before.getLast?, Piece.isGap c = true) → (∀ c ∈ gap, Piece.isGap c = true) →
      LeavesOpen line token

theorem not_endsOpen_nil : ¬EndsOpen [] := by
  rintro (equals | tilde | ⟨before, same, -⟩)
  · cases equals
  · cases tilde
  · exact absurd (List.append_eq_nil_iff.1 same.symm).2 (by decide)

/-- A last token that leaves its line open ends the text open. -/
theorem LeavesOpen.endsOpen {line : List Char} {token : Token} (leaves : LeavesOpen line token)
    (last : (Text.trimEnd line).getLast? = token.lexeme.toList.getLast?) :
    EndsOpen (Text.trimEnd line) := by
  cases leaves with
  | operator _ equals => exact .inl (last.trans equals)
  | word before gap _ parts apart gaps =>
      refine .inr (.inr ⟨before, ?_, fun c last => isBlank_of_isGap (apart c last)⟩)
      rw [parts]
      apply Text.trimEnd_append fun c member => isBlank_of_isGap (gaps c member)
      intro c last
      rw [List.getLast?_append_of_ne_nil _ (by decide)] at last
      obtain rfl : 'n' = c := Option.some.inj last
      rfl

section LastToken

variable {line : String}

/-- If the line ends open, its last lexeme is the reason. -/
theorem Plain.leavesOpen (plain : Plain line.toList) {before gaps : List Piece} {token : Token}
    (whole : Piece.split line.toList =
      before ++ .lexeme token.kind token.lexeme.toList :: gaps)
    (none : ∀ piece ∈ gaps, piece.spellings = [])
    (ends : EndsOpen (before.flatMap Piece.text ++ token.lexeme.toList)) :
    LeavesOpen line.toList token := by
  have denotes := plain.lexeme token.kind token.lexeme.toList (by simp [whole])
  rw [EndsOpen, List.getLast?_append_of_ne_nil _ denotes.ne_nil] at ends
  obtain equals | tilde | ⟨opening, ends, apart⟩ := ends
  · obtain ⟨symbol, isSymbol, -⟩ | quote := denotes.symbol_or_quote equals rfl (by decide)
    · exact .operator isSymbol equals
    · cases quote
  · exact absurd rfl (denotes.last_solid tilde).2
  · obtain ⟨rfl, word⟩ := plain.then_of_last whole ends apart
    rw [word] at denotes whole
    have gap := plain.isGap_of_mem (fun piece member => by simp [whole, member]) none
    have parts : line.toList = before.flatMap Piece.text ++ Keyword.then_.text.toList ++
        gaps.flatMap Piece.text := by
      rw [← Piece.split_text line.toList, whole]
      simp [Piece.text]
    refine .word _ _ (denotes.kind_eq (.keyword .then_)) parts ?_ gap
    intro c last
    obtain isGap | ⟨_, _, _, -, other, final⟩ := plain.last_cases whole last
    · exact isGap
    · have blank := apart c last
      rw [(other.last_solid final).1] at blank
      cases blank

/-- Without a comment, the last token decides. -/
theorem Plain.needsContinuation_iff (plain : Plain line.toList) :
    needsContinuation line = true ↔
      ∃ token ∈ Token.lastWritten? (scan line).tokens, LeavesOpen line.toList token := by
  have written := lastWritten?_spelling line
  rw [needsContinuation_iff_endsOpen]
  obtain none | ⟨before, kind, word, gaps, whole, none⟩ :=
    Piece.lastLexeme_cases (Piece.split line.toList)
  · have gap := plain.isGap_of_mem (List.Subset.refl _) none
    rw [Piece.split_text] at gap
    have trimmed : Text.trimEnd line.toList = [] :=
      List.rdropWhile_eq_nil_iff.2 fun c member => isBlank_of_isGap (gap c member)
    rw [List.flatMap_eq_nil_iff.2 none] at written
    rw [trimmed, Option.map_eq_none_iff.1 written]
    simp [not_endsOpen_nil]
  · have trimmed := plain.trimEnd_eq whole none
    have denotes := plain.lexeme kind word (by simp [whole])
    have last : (Text.trimEnd line.toList).getLast? = word.getLast? := by
      rw [trimmed, List.getLast?_append_of_ne_nil _ denotes.ne_nil]
    have spelt : ((Piece.split line.toList).flatMap Piece.spellings).getLast? =
        some ⟨kind, String.ofList word, kind.literal? word⟩ := by
      rw [whole]
      simp [Piece.spellings, List.flatMap_eq_nil_iff.2 none]
    obtain ⟨token, found, spelling⟩ := Option.map_eq_some_iff.1 (written.trans spelt)
    obtain ⟨rfl, lexeme, -⟩ := Spelling.mk.inj spelling
    obtain rfl : token.lexeme.toList = word := by rw [lexeme, String.toList_ofList]
    constructor
    · intro ends
      rw [trimmed] at ends
      exact ⟨token, found, plain.leavesOpen whole none ends⟩
    · rintro ⟨other, member, leaves⟩
      obtain rfl : token = other := Option.some.inj (found.symm.trans member)
      exact leaves.endsOpen last

end LastToken

/-- The slash belongs to the word `then` in neither text. -/
theorem endsOpen_append (code more : List Char) :
    EndsOpen (code ++ '/' :: more) ↔ EndsOpen ('/' :: more) := by
  have noSlash : '/' ∉ Keyword.then_.text.toList := by decide
  rw [EndsOpen, EndsOpen, List.getLast?_append_of_ne_nil _ (List.cons_ne_nil '/' more)]
  refine or_congr_right (or_congr_right ⟨?_, ?_⟩)
  · rintro ⟨before, whole, apart⟩
    obtain ⟨front, rfl, rest⟩ | ⟨extra, -, word⟩ := List.append_eq_append_iff.1 whole
    · cases front with
      | nil =>
          rw [List.nil_append] at rest
          exact absurd (rest ▸ List.mem_cons_self) noSlash
      | cons c front =>
          rw [List.getLast?_append_of_ne_nil _ (List.cons_ne_nil c front)] at apart
          exact ⟨c :: front, rest, apart⟩
    · exact absurd (by simp [word]) noSlash
  · rintro ⟨before, whole, apart⟩
    cases before with
    | nil =>
        rw [List.nil_append] at whole
        exact absurd (whole ▸ List.mem_cons_self) noSlash
    | cons c front =>
        refine ⟨code ++ c :: front, by rw [whole, List.append_assoc], ?_⟩
        rwa [List.getLast?_append_of_ne_nil _ (List.cons_ne_nil c front)]

/-- What comes before a comment has no say in whether the line is open. -/
theorem needsContinuation_comment {line : String} {code : List Piece} {body : List Char}
    (whole : Piece.split line.toList = code ++ [.comment body]) :
    needsContinuation line = needsContinuation (String.ofList (Piece.comment body).text) := by
  have solid : Text.isBlank '/' = false := rfl
  have parts : line.toList = code.flatMap Piece.text ++ '/' :: '/' :: body := by
    rw [← Piece.split_text line.toList, whole, List.flatMap_append, List.flatMap_singleton]
    rfl
  have alone := Text.trimEnd_solid solid [] ('/' :: body)
  rw [List.nil_append, List.nil_append] at alone
  rw [Bool.eq_iff_iff, needsContinuation_iff_endsOpen, needsContinuation_iff_endsOpen,
    String.toList_ofList, Piece.text, parts, Text.trimEnd_solid solid, endsOpen_append, alone]

/-- A line without lexical errors leaves its entry open exactly if its last token is an operator
that ends in an equals sign, or the word `then` with nothing but gaps next to it. Only a comment at
the end of the line decides instead of the tokens, as if it stood alone. -/
theorem needsContinuation_iff_lastToken {line : String} (single : '\n' ∉ line.toList)
    (clean : (scan line).errors = []) :
    (∃ code body, Piece.split line.toList = code ++ [.comment body] ∧
      needsContinuation line = needsContinuation (String.ofList (Piece.comment body).text)) ∨
    ((∀ body, .comment body ∉ Piece.split line.toList) ∧
      (needsContinuation line = true ↔
        ∃ token ∈ Token.lastWritten? (scan line).tokens, LeavesOpen line.toList token)) := by
  by_cases commented : ∃ body, .comment body ∈ Piece.split line.toList
  · obtain ⟨body, member⟩ := commented
    obtain ⟨code, after, whole⟩ := List.append_of_mem member
    obtain rfl := Piece.eq_nil_of_comment single whole
    exact .inl ⟨code, body, whole, needsContinuation_comment whole⟩
  · have noComment := not_exists.1 commented
    exact .inr ⟨noComment, (plain_of_scan single clean noComment).needsContinuation_iff⟩

/-- The word `then` in the string is not the last one, and blanks come after the one that is. -/
theorem needsContinuation_iff_lastToken_blank :
    let line := "if \"= then\" then \t"
    '\n' ∉ line.toList ∧ (scan line).errors = [] ∧ needsContinuation line = true := by
  intro line
  have pieces : Piece.split line.toList =
      [.lexeme (.keyword .if_) ['i', 'f'], .blank ' ',
        .lexeme .string ['"', '=', ' ', 't', 'h', 'e', 'n', '"'], .blank ' ',
        .lexeme (.keyword .then_) ['t', 'h', 'e', 'n'], .blank ' ', .blank '\t'] := by
    change Piece.split "if \"= then\" then \t".toList = _
    rw [Piece.split_eq_splitWithin (Nat.le_refl 18)]
    rfl
  have single : '\n' ∉ line.toList := by decide
  have clean : (scan line).errors = [] := by
    unfold scan
    rw [pieces]
    rfl
  have last : Token.lastWritten? (scan line).tokens = some ⟨.keyword .then_, "then", none, 1⟩ := by
    unfold scan
    rw [pieces]
    rfl
  refine ⟨single, clean, ?_⟩
  obtain ⟨code, body, commented, -⟩ | ⟨-, opens⟩ := needsContinuation_iff_lastToken single clean
  · have member : .comment body ∈ Piece.split line.toList := by simp [commented]
    simp [pieces] at member
  · refine opens.2 ⟨_, last, .word "if \"= then\" ".toList [' ', '\t'] rfl (by decide) ?_ ?_⟩
    · rintro c ⟨⟩
      rfl
    · exact List.all_eq_true.1 (by decide)

/-- The word `then` ends this line, and its last token opens a block. But a parenthesis stands right
before the word. -/
theorem needsContinuation_close_then :
    let line := "if (a)then"
    '\n' ∉ line.toList ∧ (scan line).errors = [] ∧
      Token.lastWritten? (scan line).tokens = some ⟨.keyword .then_, "then", none, 1⟩ ∧
      needsContinuation line = false := by
  intro line
  have pieces : Piece.split line.toList =
      [.lexeme (.keyword .if_) ['i', 'f'], .blank ' ', .lexeme (.symbol .leftParen) ['('],
        .lexeme .name ['a'], .lexeme (.symbol .rightParen) [')'],
        .lexeme (.keyword .then_) ['t', 'h', 'e', 'n']] := by
    change Piece.split "if (a)then".toList = _
    rw [Piece.split_eq_splitWithin (Nat.le_refl 10)]
    rfl
  refine ⟨by decide, ?_, ?_, by decide⟩
  · unfold scan
    rw [pieces]
    rfl
  · unfold scan
    rw [pieces]
    rfl

end Offside
